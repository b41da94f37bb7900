import SiteScript.Json.Shape

/-!
# Records in JSON

A `Record` describes how a structure is laid out in JSON: the name used in messages, the value with
every member at its default, and the members in the order of their declaration. From it come both
`Record.write` and `Record.read`.

A record is read from an object, whose members are taken in the order they stand in, or from an
array, whose items are taken for the members in declared order. Members that are not declared are
passed over; absent ones keep their default unless they are required.
-/

namespace SiteScript

/-- One member of a record of type `α`. -/
structure Member (α : Type) where
  /-- The key of the member. -/
  name : String
  /-- Whether the member has to be present. -/
  required : Bool
  /-- Read the member's value and store it. -/
  read : Json → Except ShapeFault (α → α)
  /-- The member's value, or `none` if the member is left out. -/
  write : α → Option Json

/-- The layout of a structure in JSON. -/
structure Record (α : Type) where
  /-- The name of the record in messages. -/
  name : String
  /-- The record with every member at its default. -/
  blank : α
  /-- The members in declared order. -/
  members : List (Member α)

namespace Member

variable {α β : Type}

/-- A member that may be absent. -/
def optional (name : String) (read : Json → Except ShapeFault β) (write : β → Option Json)
    (get : α → β) (set : β → α → α) : Member α :=
  ⟨name, false, fun x => (read x).map set, fun r => write (get r)⟩

/-- A text that has to be present. -/
def requiredText (name : String) (get : α → String) (set : String → α → α) : Member α :=
  ⟨name, true, fun x => x.asText.map set, fun r => some (.str (get r))⟩

/-- A text for which null stands for the empty text. -/
def text (name : String) (get : α → String) (set : String → α → α) : Member α :=
  optional name (Json.orBlank "" Json.asText) (fun s => some (.str s)) get set

/-- A list for which null stands for the empty list. -/
def list (name : String) (read : Json → Except ShapeFault β) (write : β → Json)
    (get : α → List β) (set : List β → α → α) : Member α :=
  optional name (Json.orBlank [] (Json.asList read)) (fun xs => some (.arr (xs.map write))) get set

end Member

namespace Record

variable {α : Type} (r : Record α)

/-- The record as an object, its members in declared order. -/
def write (x : α) : Json :=
  .obj (r.members.filterMap fun m => (m.write x).map fun v => (m.name, v))

/-- Take one member of an object. -/
def readMember (x : α) (key : String) (value : Json) : Except ShapeFault α :=
  match r.members.find? fun m => m.name = key with
  | some m => (m.read value).map fun set => set x
  | none => .ok x

/-- Take the members of an object one after the other. -/
def readMembers (x : α) (ms : Members) : Except ShapeFault α :=
  ms.foldlM (fun x m => r.readMember x m.1 m.2) x

/-- The first required member that an object lacks. -/
def missing? (ms : Members) : Option String :=
  (r.members.find? fun m => m.required && (ms.get? m.name).isNone).map (·.name)

/-- Take the items of an array for the given members; `taken` items have been taken before. -/
def readItems (x : α) (taken : Nat) : List (Member α) → List Json → Except ShapeFault α
  | [], [] => .ok x
  | [], _ :: items => .error (.tooLong (taken + items.length + 1))
  | m :: ms, [] =>
    if m.required then .error (.tooShort taken r.name r.members.length) else readItems x taken ms []
  | m :: ms, item :: items => do
    let set ← m.read item
    readItems (set x) (taken + 1) ms items

/-- Read a record. -/
def read : Json → Except ShapeFault α
  | .obj ms => do
    let x ← r.readMembers r.blank ms
    match r.missing? ms with
    | some name => .error (.missing name)
    | none => .ok x
  | .arr items => r.readItems r.blank 0 r.members items
  | x => .error (.wrongType x (.record r.name))

end Record

end SiteScript
