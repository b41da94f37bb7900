import SiteScript.Json.Members
import SiteScript.Json.Number
import SiteScript.Json.Quoted

/-!
# Reading JSON text

`Json.parse` reads a whole text as one value: strict JSON, at most `maxDepth` arrays and objects
inside each other, the members of every object sorted with the last of several equal keys kept.
`readValue` reads the value at the head of a text and is what statements about reading are about.
-/

namespace SiteScript.Json

/-- The characters that may stand between the parts of a JSON text. -/
def isSpace (c : Char) : Bool :=
  c = ' ' || c = '\n' || c = '\t' || c = '\r'

def skipSpace (cs : List Char) : List Char :=
  cs.dropWhile isSpace

/-- A reader takes something from the head of a text and answers it with the rest. -/
abbrev Reader (α : Type) := List Char → Except Stop (α × List Char)

/-- Read the remaining letters of a word that stands for `value`. -/
def readWord (value : Json) : List Char → Reader Json
  | [], cs => .ok (value, cs)
  | _ :: _, [] => .error ⟨.valueMissing, [], 0⟩
  | w :: ws, c :: cs => if c = w then readWord value ws cs else .error ⟨.wordExpected, c :: cs, 1⟩

/-- Read the items of an array that has one, with its closing bracket. The fuel bounds their
number; the length of the text is enough. -/
def readItems (value : Reader Json) : Nat → Reader (List Json)
  | 0, cs => .error ⟨.valueExpected, cs, 1⟩
  | fuel + 1, cs => do
    let (x, rest) ← value cs
    match skipSpace rest with
    | [] => .error ⟨.arrayUnfinished, [], 0⟩
    | ']' :: rest => .ok ([x], rest)
    | ',' :: rest =>
      match skipSpace rest with
      | [] => .error ⟨.valueMissing, [], 0⟩
      | ']' :: rest => .error ⟨.trailingComma, ']' :: rest, 1⟩
      | next =>
        let (xs, rest) ← readItems value fuel next
        .ok (x :: xs, rest)
    | rest => .error ⟨.itemEndExpected, rest, 1⟩

/-- Read a key, a colon and a value. -/
def readMember (value : Reader Json) : Reader (String × Json)
  | '"' :: cs => do
    let (key, rest) ← readString cs
    match skipSpace rest with
    | [] => .error ⟨.objectUnfinished, [], 0⟩
    | ':' :: rest =>
      let (x, rest) ← value rest
      .ok ((String.ofList key, x), rest)
    | rest => .error ⟨.colonExpected, rest, 1⟩
  | cs => .error ⟨.keyExpected, cs, 1⟩

/-- Read the members of an object that has one, with its closing brace; the fuel is as for
`readItems`. -/
def readMembers (value : Reader Json) : Nat → Reader Members
  | 0, cs => .error ⟨.valueExpected, cs, 1⟩
  | fuel + 1, cs => do
    let (m, rest) ← readMember value cs
    match skipSpace rest with
    | [] => .error ⟨.objectUnfinished, [], 0⟩
    | '\x7d' :: rest => .ok ([m], rest)
    | ',' :: rest =>
      match skipSpace rest with
      | [] => .error ⟨.valueMissing, [], 0⟩
      | '\x7d' :: rest => .error ⟨.trailingComma, '\x7d' :: rest, 1⟩
      | next =>
        let (ms, rest) ← readMembers value fuel next
        .ok (m :: ms, rest)
    | rest => .error ⟨.memberEndExpected, rest, 1⟩

/-- Read an array after its opening bracket. -/
def readArray (value : Reader Json) : Reader Json := fun cs =>
  match skipSpace cs with
  | [] => .error ⟨.arrayUnfinished, [], 0⟩
  | ']' :: rest => .ok (.arr [], rest)
  | cs => do
    let (xs, rest) ← readItems value cs.length cs
    .ok (.arr xs, rest)

/-- Read an object after its opening brace. -/
def readObject (value : Reader Json) : Reader Json := fun cs =>
  match skipSpace cs with
  | [] => .error ⟨.objectUnfinished, [], 0⟩
  | '\x7d' :: rest => .ok (.obj [], rest)
  | cs => do
    let (ms, rest) ← readMembers value cs.length cs
    .ok (.obj (Members.ofList ms), rest)

/-- Read a value, given the reader of the values inside it, if there may be any. -/
def readWith (inner : Option (Reader Json)) : Reader Json := fun cs =>
  match skipSpace cs with
  | [] => .error ⟨.valueMissing, [], 0⟩
  | 'n' :: cs => readWord .null ['u', 'l', 'l'] cs
  | 't' :: cs => readWord (.bool true) ['r', 'u', 'e'] cs
  | 'f' :: cs => readWord (.bool false) ['a', 'l', 's', 'e'] cs
  | '"' :: cs => do
    let (s, rest) ← readString cs
    .ok (.str (String.ofList s), rest)
  | '[' :: cs =>
    match inner with
    | some value => readArray value cs
    | none => .error ⟨.nestedTooDeeply, '[' :: cs, 1⟩
  | '\x7b' :: cs =>
    match inner with
    | some value => readObject value cs
    | none => .error ⟨.nestedTooDeeply, '\x7b' :: cs, 1⟩
  | c :: cs =>
    if c = '-' ∨ c.isDigit then do
      let (n, rest) ← Number.read (c :: cs)
      .ok (.num n, rest)
    else .error ⟨.valueExpected, c :: cs, 1⟩

/-- Read a value in which arrays and objects are nested at most `depth` deep. -/
def readValue : Nat → Reader Json
  | 0 => readWith none
  | depth + 1 => readWith (some (readValue depth))

/-- How deep arrays and objects may be nested in a text. -/
def maxDepth : Nat := 127

/-- Read a text that holds one value and nothing else. -/
def readText (cs : List Char) : Except Stop Json := do
  let (x, rest) ← readValue maxDepth cs
  match skipSpace rest with
  | [] => .ok x
  | rest => .error ⟨.trailingCharacters, rest, 1⟩

/-- The value that a text holds. -/
def parse (text : String) : Except SyntaxFault Json :=
  (readText text.toList).mapError fun stop => stop.locate text.toList

end SiteScript.Json
