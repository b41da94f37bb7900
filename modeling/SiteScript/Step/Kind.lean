import SiteScript.Step.Definition
import SiteScript.Step.Emission

/-!
# Kinds of steps

A `Kind` is all that a type of step owns: what such a step holds, how that is read from attributes
and written to them, the rules for it, and the script.  An application gives each type a kind;
`Kinds.builtin` are those of the six actions.
-/

namespace SiteScript

/-- What a type of step owns. -/
structure Kind where
  /-- What a step holds. -/
  Content : Type
  /-- Every attribute at its default. -/
  blank : Content
  read : Json → Except ShapeFault Content
  write : Content → Json
  /-- Fill in what follows from other attributes. -/
  normalize : Content → Content
  /-- The rules for what has been filled in. -/
  check : Content → Except Fault Unit
  /-- The values that a step of a name yields. -/
  params : String → Content → List ParamDescriptor
  /-- The script of a step of a name, before it is laid out. -/
  render : String → Content → Except Fault String
  /-- The function that the script calls, if it calls one. -/
  helper? : Content → Option String

namespace Kind

/-- The attributes that are stored, sorted by key at every depth. They have to be an object. -/
def attributes (k : Kind) (content : k.Content) : Except Fault Members :=
  match (k.write content).canonical with
  | .obj ms => .ok ms
  | x => .error (.definition (.attributesNotObject x))

/-- Check the attributes of a step of a name; answers them in normal form. -/
def settle (k : Kind) (name : String) (ms : Members) : Except Fault Members :=
  match k.read (.obj ms) with
  | .error e => .error (.definition (.attributes name e))
  | .ok raw => do
    k.check (k.normalize raw)
    k.attributes (k.normalize raw)

end Kind

/-- The kind of each type. -/
abbrev Kinds := StepType → Kind

/-- The kinds of the six actions. -/
def Kinds.builtin : Kinds := fun t => {
  Content := Action
  blank := Action.blank t
  read := Action.read t
  write := Action.write
  normalize := Action.normalize
  check := Action.check
  params := Action.params
  render := Action.render
  helper? := Action.helper? }

end SiteScript
