import SiteScript.Fault
import SiteScript.Json.Record

/-!
# Step definitions

A step definition is what an editor stores: a type tag, a name, and attributes that nobody has
looked at yet. In JSON all three stand in one object.
-/

namespace SiteScript

/-! ## Types in JSON -/

namespace StepType

/-- The type of a tag that a JSON value names. -/
def readTag (tag : String) : Except ShapeFault StepType :=
  match ofTag? tag with
  | some t => .ok t
  | none => .error (.unknownTag tag (all.map StepType.tag))

/-- Read a type from its tag, or from an object with the tag for its only key and null under it. -/
def read : Json → Except ShapeFault StepType
  | .str tag => readTag tag
  | .obj [(tag, x)] => do
    let t ← readTag tag
    match x with
    | .null => .ok t
    | x => .error (.wrongType x .nothing)
  | .obj ms => .error (.wrongValue (.obj ms) .singleMember)
  | x => .error (.wrongType x .tag)

/-- A type as its tag. -/
def write (t : StepType) : Json :=
  .str t.tag

end StepType

/-! ## Definitions -/

/-- A step as it is stored. -/
structure StepDefinition where
  tag : String := ""
  name : String := ""
  attributes : Members := []
deriving DecidableEq

namespace StepDefinition

/-- Whether a key of the object is kept as an attribute. -/
def isAttribute (key : String) : Bool :=
  key ≠ "type" && key ≠ "name"

/-- Read an optional text under a key; null stands for the empty text. -/
def readText (ms : Members) (key : String) : Except ShapeFault String :=
  Json.orBlank "" Json.asText ((ms.get? key).getD .null)

/-- Read a definition from an object. The name is looked at before the type. -/
def read : Json → Except ShapeFault StepDefinition
  | .obj ms => do
    let name ← readText ms "name"
    let tag ← readText ms "type"
    .ok ⟨tag, name, ms.filter fun m => isAttribute m.1⟩
  | x => .error (.wrongType x (.record "StepDefinition"))

/-- A definition as an object: the type, the name, then the attributes. -/
def write (d : StepDefinition) : Json :=
  .obj (("type", .str d.tag) :: ("name", .str d.name) :: d.attributes)

/-- The step type that the tag names. -/
def type (d : StepDefinition) : Except Fault StepType :=
  match StepType.ofTag? d.tag with
  | some t => .ok t
  | none => .error (.unknownType d.tag)

/-- The attribute under a key. -/
def get? (d : StepDefinition) (key : String) : Option Json :=
  d.attributes.get? key

/-- The attribute under a key, if it is a string. -/
def text? (d : StepDefinition) (key : String) : Option String :=
  (d.get? key).bind Json.text?

/-- The definition with an attribute put under a key. -/
def set (d : StepDefinition) (key : String) (value : Json) : StepDefinition :=
  { d with attributes := d.attributes.insert key value }

end StepDefinition

end SiteScript
