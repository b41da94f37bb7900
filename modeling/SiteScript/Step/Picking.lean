import SiteScript.InPlace
import SiteScript.Step.Definition

/-!
# Picking selectors

A user picks an element in the page, and its selector is stored in a step definition.
`StepDefinition.request` says what to ask for, `StepDefinition.pick` stores the answer, and
`StepDefinition.setScoped` switches the use of the container in a selector step.  Both change the
definition in place (`storePick`, `storeScoped`).
-/

namespace SiteScript

/-- What a picker is asked for. -/
structure PickRequest where
  /-- Only elements inside this selector can be picked; empty stands for the page. -/
  parent : String
  /-- The element names that can be picked, or a star for all. -/
  allowed : String
deriving DecidableEq, Repr

/-- A request in JSON. -/
def PickRequest.record : Record PickRequest where
  name := "SelectorRequest"
  blank := ⟨"", ""⟩
  members :=
    [.requiredText "parentCSSSelector" PickRequest.parent fun s r => { r with parent := s },
      .requiredText "allowedElements" PickRequest.allowed fun s r => { r with allowed := s }]

/-- What a picker answers. -/
structure Pick where
  selector : String
deriving DecidableEq, Repr

/-- An answer in JSON. -/
def Pick.record : Record Pick where
  name := "SelectorPick"
  blank := ⟨""⟩
  members := [.requiredText "CSSSelector" Pick.selector fun s p => { p with selector := s }]

namespace StepDefinition

/-- The field at an index, which has to be an object. -/
def field (d : StepDefinition) (index : Nat) : Except Fault Members :=
  match ((d.get? "fields").bind Json.items?).bind fun xs => (xs[index]?).bind Json.members? with
  | some ms => .ok ms
  | none => .error (.definition (.noField index))

/-- The element in which the fields of a selector step are picked. -/
def pickParent (d : StepDefinition) : String :=
  if ((d.get? "scoped").bind Json.bool?).getD true then (d.text? "container").getD "" else ""

/-- What to ask a picker for. -/
def request (d : StepDefinition) (target : PickTarget) : Except Fault PickRequest := do
  let t ← d.type
  match t, target with
  | .click, .key => .ok ⟨"", "*"⟩
  | .select, .key => .ok ⟨"", "select"⟩
  | .formSelector, .key => .ok ⟨"", "form"⟩
  | .selector, .container => .ok ⟨"", "*"⟩
  | .scrape, .field index => do
    let _ ← d.field index
    .ok ⟨"", "*"⟩
  | .selector, .field index => do
    let _ ← d.field index
    .ok ⟨d.pickParent, "*"⟩
  | t, target => .error (.definition (.notPickable t target))

/-! ## Storing -/

/-- Put an attribute under a key. -/
def put (key : String) (value : Json) : InPlace StepDefinition Unit :=
  modify fun d => d.set key value

/-- The fields with the key of the field at an index replaced, if that field is an object. -/
def rekey (index : Nat) (key : String) (fields : Json) : Option Json := do
  let xs ← fields.items?
  let ms ← (xs[index]?).bind Json.members?
  some (.arr (xs.set index (.obj (Members.insert "key" (.str key) ms))))

/-- Replace the key of the field at an index.  The field is looked up where it is changed. -/
def putFieldKey (index : Nat) (key : String) : InPlace StepDefinition Unit := do
  match ((← get).get? "fields").bind (rekey index key) with
  | some fields => put "fields" fields
  | none => throw (.definition (.noField index))

/-- Store a picked selector. -/
def storePick (target : PickTarget) (p : Pick) : InPlace StepDefinition Unit := do
  let _ ← MonadExcept.ofExcept ((← get).request target)
  match target with
  | .key => put "key" (.str p.selector)
  | .container =>
    put "container" (.str p.selector)
    put "scoped" (.bool true)
  | .field index => putFieldKey index p.selector

/-- Switch the use of the container on or off; off also blanks the container. -/
def storeScoped (on : Bool) : InPlace StepDefinition Unit := do
  let t ← MonadExcept.ofExcept (← get).type
  if t = .selector then
    put "scoped" (.bool on)
    if !on then put "container" (.str "")
  else throw (.definition (.notScopable (← get).tag))

/-- The definition with a picked selector stored. -/
def pick (d : StepDefinition) (target : PickTarget) (p : Pick) : Except Fault StepDefinition :=
  (storePick target p).after d

/-- The definition with the use of the container switched on or off. -/
def setScoped (d : StepDefinition) (on : Bool) : Except Fault StepDefinition :=
  (storeScoped on).after d

end StepDefinition

end SiteScript
