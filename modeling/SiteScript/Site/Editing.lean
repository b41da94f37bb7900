import SiteScript.InPlace
import SiteScript.Site.Basic

/-!
# Editing sites

An editor adds, replaces and removes the steps of a definition, which it changes in place.  A step is
checked before it is stored, and stored in its normal form.  An `Edit` is one such operation;
`SiteDefinition.perform` answers it together with the definition that it leaves behind.
-/

namespace SiteScript.SiteDefinition

/-- Whether a step of the definition has a name. -/
def hasStep (d : SiteDefinition) (name : String) : Bool :=
  d.steps.any fun s => s.name = name

/-- Check a step before it is stored. A new step must not take a name that is in use. -/
def checkStep (d : SiteDefinition) (step : StepDefinition) (isNew : Bool) :
    Except Fault CheckedStep :=
  if step.name = "" then .error (.required .stepName)
  else if step.tag = "" then .error (.required .stepType)
  else if isNew && d.hasStep step.name then .error (.duplicateName step.name)
  else Registry.full.check step

/-! ## Changes -/

/-- Put a step at the end. -/
def storeStep (step : StepDefinition) : InPlace SiteDefinition Unit := do
  let v ← MonadExcept.ofExcept ((← get).checkStep step true)
  modify fun d => { d with steps := d.steps ++ [v.definition] }

/-- Put a step in place of the one at an index. -/
def storeStepAt (index : Nat) (step : StepDefinition) : InPlace SiteDefinition Unit := do
  if (← get).steps.length ≤ index then throw (.definition (.noStep index))
  let v ← MonadExcept.ofExcept ((← get).checkStep step false)
  modify fun d => { d with steps := d.steps.set index v.definition }

/-- Take out the step at an index, if there is one. -/
def takeStep (index : Nat) : InPlace SiteDefinition (Option StepDefinition) := do
  match (← get).steps[index]? with
  | some step =>
    modify fun d => { d with steps := d.steps.eraseIdx index }
    return some step
  | none => return none

/-- The definition with a step added. -/
def addStep (d : SiteDefinition) (step : StepDefinition) : Except Fault SiteDefinition :=
  (storeStep step).after d

/-- The definition with the step at an index replaced. -/
def updateStep (d : SiteDefinition) (index : Nat) (step : StepDefinition) :
    Except Fault SiteDefinition :=
  (storeStepAt index step).after d

/-! ## Operations -/

/-- An operation of an editor. -/
inductive Edit where
  | add (step : StepDefinition)
  | update (index : Nat) (step : StepDefinition)
  | remove (index : Nat)

/-- The change that an operation makes; only a removal answers a step. -/
def Edit.change : Edit → InPlace SiteDefinition (Option StepDefinition)
  | add step => do
    storeStep step
    return none
  | update index step => do
    storeStepAt index step
    return none
  | remove index => takeStep index

/-- The answer of an operation, and the definition that it leaves behind. -/
def perform (d : SiteDefinition) (e : Edit) :
    Except Fault (Option StepDefinition) × SiteDefinition :=
  e.change.run d

/-- The definition that some operations leave behind, each of which may fail. -/
def run (d : SiteDefinition) (edits : List Edit) : SiteDefinition :=
  edits.foldl (fun d e => (d.perform e).2) d

end SiteScript.SiteDefinition
