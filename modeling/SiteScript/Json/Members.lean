import SiteScript.Json.Basic

/-!
# Members of objects

Objects read from a text have their members sorted by key, each key once; the order of keys is that
of their code points. `insert` keeps that form, `ofList` brings any list of members into it (the
last of several members with one key stays), `Json.canonical` does so at every depth.
-/

namespace SiteScript

namespace Members

/-- The value of the member `key`. -/
def get? (ms : Members) (key : String) : Option Json :=
  ms.lookup key

/-- Put `value` under `key`, in place of what was there. -/
def insert (key : String) (value : Json) : Members → Members
  | [] => [(key, value)]
  | (k, v) :: ms =>
    if key = k then (key, value) :: ms
    else if key < k then (key, value) :: (k, v) :: ms
    else (k, v) :: insert key value ms

/-- Take the member `key` away. -/
def erase (ms : Members) (key : String) : Members :=
  ms.filter fun m => m.1 ≠ key

/-- The sorted members of a list. -/
def ofList (ms : Members) : Members :=
  ms.foldl (fun sorted m => insert m.1 m.2 sorted) []

/-- The keys rise strictly. -/
def Sorted (ms : Members) : Prop :=
  ms.Pairwise fun a b => a.1 < b.1

end Members

namespace Json

mutual

/-- The value with the members of every object in it sorted. -/
def canonical : Json → Json
  | arr xs => arr (canonicalItems xs)
  | obj ms => obj (Members.ofList (canonicalMembers ms))
  | null => null
  | bool b => bool b
  | num n => num n
  | str s => str s

/-- `canonical` on each of some values. -/
def canonicalItems : List Json → List Json
  | [] => []
  | x :: xs => canonical x :: canonicalItems xs

/-- `canonical` on the value of each member. -/
def canonicalMembers : Members → Members
  | [] => []
  | (k, x) :: ms => (k, canonical x) :: canonicalMembers ms

end

end Json

end SiteScript
