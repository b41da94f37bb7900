import SiteScript.Json.Printer
import SiteScript.Json.Shape
import SiteScript.Step.Target
import SiteScript.Step.Type

/-!
# Faults

`Fault` has a constructor for every reason why a site, a step, a template or an option is refused;
`Fault.message` words it.
-/

namespace SiteScript

/-- A property that must not be empty. -/
inductive Requirement where
  | siteName
  | siteUrl
  | stepName
  | stepType
  | key
  | value
  | container
  | fields
  | fieldKey (index : Nat)
deriving DecidableEq, Repr

/-- The path of a required property. -/
def Requirement.path : Requirement → String
  | siteName => "site.name"
  | siteUrl => "site.url"
  | stepName => "step.name"
  | stepType => "step.type"
  | key => "step.key"
  | value => "step.value"
  | container => "step.container"
  | fields => "step.fields"
  | fieldKey index => "step.fields[" ++ toString index ++ "].key"

/-- Why a definition cannot be used. -/
inductive DefinitionFault where
  | siteNotObject
  | siteShape (fault : ShapeFault)
  | stepsNotArray
  | stepShapeAt (index : Nat) (fault : ShapeFault)
  | stepNotObject
  | stepShape (fault : ShapeFault)
  | attributes (step : String) (fault : ShapeFault)
  | attributesNotObject (value : Json)
  | noStep (index : Nat)
  | noField (index : Nat)
  | notPickable (type : StepType) (target : PickTarget)
  | notScopable (tag : String)
deriving DecidableEq

/-- The wording of a definition's fault. -/
def DefinitionFault.message : DefinitionFault → String
  | siteNotObject => "The \"Site\" is required"
  | siteShape fault => "site: " ++ fault.message
  | stepsNotArray => "The \"site.steps\" property must be an array"
  | stepShapeAt index fault => "site.steps[" ++ toString index ++ "]: " ++ fault.message
  | stepNotObject => "The \"Step\" is required"
  | stepShape fault => "step: " ++ fault.message
  | attributes step fault => "step '" ++ step ++ "': " ++ fault.message
  | attributesNotObject value =>
    "step attributes must serialize to an object, got " ++ value.compact
  | noStep index => "no step at index " ++ toString index
  | noField index => "no field at index " ++ toString index
  | notPickable type target =>
    type.tag ++ " steps have no " ++ target.label ++ " selector to pick"
  | notScopable tag => tag ++ " steps cannot be scoped"

/-- Why something is refused. -/
inductive Fault where
  /-- A property is absent or empty. -/
  | required (property : Requirement)
  /-- Only one of user and password is set. -/
  | halfCredentials
  /-- A new step has the name of another one. -/
  | duplicateName (name : String)
  /-- There is no such step type. -/
  | unknownType (tag : String)
  /-- A slot of a template is malformed or has no value. -/
  | unresolvedSlot (slot : String)
  /-- A definition has the wrong shape or is used in the wrong way. -/
  | definition (fault : DefinitionFault)
  /-- There is no such indentation width. -/
  | indentWidth (width : Nat)
  /-- A text is not JSON. -/
  | jsonText (fault : SyntaxFault)
  /-- A JSON value does not have the shape of the data to be read. -/
  | jsonShape (fault : ShapeFault)
deriving DecidableEq

/-- The wording of a fault. -/
def Fault.message : Fault → String
  | required property => "The \"" ++ property.path ++ "\" property is required"
  | halfCredentials => "Both the username and password are required"
  | duplicateName name => "Duplicated step name: " ++ name
  | unknownType tag => "The Step type " ++ tag ++ " is not valid"
  | unresolvedSlot slot => "Unresolved template token: " ++ slot
  | definition fault => "Invalid definition: " ++ fault.message
  | indentWidth width => badWidthMessage width
  | jsonText fault => "JSON error: " ++ fault.message
  | jsonShape fault => "JSON error: " ++ fault.message

end SiteScript
