import SiteScript.Except
import SiteScript.Script.Layout
import SiteScript.Step.Kind

/-!
# Steps

A step is made of a definition in two phases.  `Registry.check` answers the definition in normal
form, or names the first fault: of the name, the type, the shape of the attributes, the rules of
the kind.  `Registry.build` then reads the stored attributes once more; the `Step` that it makes
keeps what it reads beside the definition.
-/

namespace SiteScript

/-- A definition that has passed the check, in normal form. -/
structure CheckedStep where
  type : StepType
  name : String
  attributes : Members
  named : name ≠ ""
deriving DecidableEq

namespace CheckedStep

/-- The definition in which a checked step is stored. -/
def definition (v : CheckedStep) : StepDefinition :=
  ⟨v.type.tag, v.name, v.attributes⟩

/-- The attributes are the answer of the kind to some attributes. -/
def Settled (K : Kinds) (v : CheckedStep) : Prop :=
  ∃ ms, (K v.type).settle v.name ms = .ok v.attributes

end CheckedStep

/-- A step with what its script is made of. -/
structure Step (K : Kinds := .builtin) where
  /-- What is stored. -/
  checked : CheckedStep
  /-- What the kind reads from the stored attributes. -/
  content : (K checked.type).Content
  reads : (K checked.type).read (.obj checked.attributes) = .ok content

namespace Step

variable {K : Kinds}

/-- The name of a step. -/
def name (s : Step K) : String :=
  s.checked.name

/-- The type of a step. -/
def type (s : Step K) : StepType :=
  s.checked.type

/-- The step in the form in which it is stored. -/
def definition (s : Step K) : StepDefinition :=
  s.checked.definition

/-- The values that a step yields. -/
def params (s : Step K) : List ParamDescriptor :=
  (K s.checked.type).params s.name s.content

/-- The script of a step. -/
def script (w : IndentWidth) (s : Step K) : Except Fault String :=
  ((K s.checked.type).render s.name s.content).map (Layout.layout w)

/-- The function that the script of a step calls. -/
def helper? (s : Step K) : Option String :=
  (K s.checked.type).helper? s.content

/-! ### The six actions -/

/-- What a step of one of the six types does. -/
def action (s : Step) : Action :=
  s.content

theorem type_action (s : Step) : s.action.type = s.type :=
  Action.type_of_read s.reads

theorem params_eq (s : Step) : s.params = s.action.params s.name := rfl

theorem script_eq (w : IndentWidth) (s : Step) :
    s.script w = (s.action.render s.name).map (Layout.layout w) := rfl

theorem helper?_eq (s : Step) : s.helper? = s.action.helper? := rfl

end Step

/-- The step types that are known, each once and with its kind among `K`. -/
structure Registry (K : Kinds := .builtin) where
  types : List StepType := []
  nodup : types.Nodup := by decide
deriving DecidableEq

namespace Registry

/-- No types. -/
def empty : Registry := {}

/-- All types, with their own kinds. -/
def full : Registry where
  types := StepType.all

variable {K : Kinds} (r : Registry K)

/-- Whether a type is known. -/
def contains (t : StepType) : Bool :=
  t ∈ r.types

/-- The registry that also knows a type. -/
def register (t : StepType) : Registry K :=
  if h : t ∈ r.types then r else ⟨t :: r.types, List.nodup_cons.2 ⟨h, r.nodup⟩⟩

/-- The known types in the order of `StepType.all`. -/
def stepTypes : List StepType :=
  StepType.all.filter r.contains

/-- The number of known types. -/
def size : Nat :=
  r.types.length

/-- Whether no type is known. -/
def isEmpty : Bool :=
  r.types.isEmpty

/-- A summary of the known types. -/
def summary : String :=
  "StepRegistry \x7b step_types: [" ++ ", ".intercalate (r.stepTypes.map StepType.label) ++ "] \x7d"

/-- Fail if a type is not known. -/
def expect (t : StepType) : Except Fault Unit :=
  if r.contains t then .ok () else .error (.unknownType t.tag)

/-- Check a definition. -/
def check (d : StepDefinition) : Except Fault CheckedStep :=
  if named : d.name = "" then .error (.required .stepName)
  else if d.tag = "" then .error (.required .stepType)
  else do
    let t ← d.type
    r.expect t
    let ms ← (K t).settle d.name d.attributes
    .ok ⟨t, d.name, ms, named⟩

/-- Check the definition that an object holds. -/
def checkJson (x : Json) : Except Fault CheckedStep :=
  match x with
  | .obj _ =>
    match StepDefinition.read x with
    | .error e => .error (.definition (.stepShape e))
    | .ok d => r.check d
  | _ => .error (.definition .stepNotObject)

/-- Make the step of what any registry has checked. -/
def build (v : CheckedStep) : Except Fault (Step K) := do
  r.expect v.type
  match h : (K v.type).read (.obj v.attributes) with
  | .error e => .error (.jsonShape e)
  | .ok content => .ok ⟨v, content, h⟩

/-- Make the step of a definition. -/
def create (d : StepDefinition) : Except Fault (Step K) := do
  let v ← r.check d
  r.build v

/-- A definition of a known type with every attribute at its default. -/
def defaults (t : StepType) : Except Fault StepDefinition := do
  r.expect t
  let ms ← (K t).attributes (K t).blank
  .ok ⟨t.tag, "", ms⟩

/-! ## What is made of a definition -/

variable {r} {d : StepDefinition}

theorem settled_of_check {v : CheckedStep} (h : r.check d = .ok v) : v.Settled K := by
  unfold check at h
  split at h
  · cases h
  split at h
  · cases h
  obtain ⟨t, -, h⟩ := Except.bind_eq_ok_iff.1 h
  obtain ⟨⟨⟩, -, h⟩ := Except.bind_eq_ok_iff.1 h
  obtain ⟨ms, hms, h⟩ := Except.bind_eq_ok_iff.1 h
  cases h
  exact ⟨d.attributes, hms⟩

/-- A step keeps what has been checked. -/
theorem checked_of_build {v : CheckedStep} {s : Step K} (h : r.build v = .ok s) :
    s.checked = v := by
  obtain ⟨⟨⟩, -, h⟩ := Except.bind_eq_ok_iff.1 h
  split at h
  · cases h
  · cases h
    rfl

theorem settled_of_create {s : Step K} (h : r.create d = .ok s) : s.checked.Settled K := by
  obtain ⟨v, hv, hs⟩ := Except.bind_eq_ok_iff.1 h
  rw [checked_of_build hs]
  exact settled_of_check hv

end Registry

end SiteScript
