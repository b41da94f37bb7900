import SiteScript.Except
import SiteScript.Step.Field
import SiteScript.Step.Type

/-!
# Actions

An `Action` is what a step does, with the attributes that its type declares. Each type has a record
that lays its attributes out in JSON; `Action.read` and `Action.write` put the types together.
-/

namespace SiteScript

/-- Click on the element of a selector. -/
structure Click where
  key : String := ""
deriving DecidableEq, Repr

/-- Choose a value in a control. -/
structure Select where
  key : String := ""
  value : String := ""
deriving DecidableEq, Repr

/-- Fill in the form of the page. -/
structure Form where
  fields : List FormField := []
  submit : Bool := true
deriving DecidableEq, Repr

/-- Fill in the form of a selector. -/
structure FormSelector where
  key : String := ""
  fields : List FormField := []
  submit : Bool := true
deriving DecidableEq, Repr

/-- Take values from the page. -/
structure Scrape where
  fields : List ScrapeField := []
deriving DecidableEq, Repr

/-- Take values from every element of a container, or from the page. -/
structure Selector where
  /-- Whether the fields are looked up in the container, if that is said. -/
  scope : Option Bool := none
  container : String := ""
  fields : List ScrapeField := []
deriving DecidableEq, Repr

/-- Whether the fields are looked up in the container: as said, or else if there is one. -/
def Selector.isScoped (s : Selector) : Bool :=
  s.scope.getD (s.container ≠ "")

/-! ## Attributes in JSON -/

/-- Attributes of a click. -/
def Click.record : Record Click where
  name := "ClickParams"
  blank := {}
  members := [.text "key" Click.key fun s a => { a with key := s }]

/-- Attributes of a selection. -/
def Select.record : Record Select where
  name := "SelectParams"
  blank := {}
  members :=
    [.text "key" Select.key fun s a => { a with key := s },
      .text "value" Select.value fun s a => { a with value := s }]

/-- Attributes of a form. -/
def Form.record : Record Form where
  name := "FormParams"
  blank := {}
  members :=
    [.list "fields" FormField.record.read FormField.record.write Form.fields
        fun fs a => { a with fields := fs },
      .optional "submit" Json.asBool (fun b => some (.bool b)) Form.submit
        fun b a => { a with submit := b }]

/-- Attributes of a form with a selector. -/
def FormSelector.record : Record FormSelector where
  name := "FormSelectorParams"
  blank := {}
  members :=
    [.text "key" FormSelector.key fun s a => { a with key := s },
      .list "fields" FormField.record.read FormField.record.write FormSelector.fields
        fun fs a => { a with fields := fs },
      .optional "submit" Json.asBool (fun b => some (.bool b)) FormSelector.submit
        fun b a => { a with submit := b }]

/-- Attributes of a scrape. -/
def Scrape.record : Record Scrape where
  name := "ScrapeParams"
  blank := {}
  members :=
    [.list "fields" ScrapeField.record.read ScrapeField.record.write Scrape.fields
        fun fs a => { a with fields := fs }]

/-- Attributes of a selector. An unsaid scope is written as null. -/
def Selector.record : Record Selector where
  name := "SelectorParams"
  blank := {}
  members :=
    [.optional "scoped" (Json.asOption Json.asBool) (fun b => some (b.elim .null .bool))
        Selector.scope fun b a => { a with scope := b },
      .text "container" Selector.container fun s a => { a with container := s },
      .list "fields" ScrapeField.record.read ScrapeField.record.write Selector.fields
        fun fs a => { a with fields := fs }]

/-! ## Actions of all types -/

/-- What a step does. -/
inductive Action where
  | click (a : Click)
  | select (a : Select)
  | form (a : Form)
  | formSelector (a : FormSelector)
  | scrape (a : Scrape)
  | selector (a : Selector)
deriving DecidableEq, Repr

namespace Action

/-- The type of an action. -/
def type : Action → StepType
  | click _ => .click
  | select _ => .select
  | form _ => .form
  | formSelector _ => .formSelector
  | scrape _ => .scrape
  | selector _ => .selector

/-- The action of a type with every attribute at its default. -/
def blank : StepType → Action
  | .click => click {}
  | .select => select {}
  | .form => form {}
  | .formSelector => formSelector {}
  | .scrape => scrape {}
  | .selector => selector {}

/-- Read the attributes of an action of a type. -/
def read : StepType → Json → Except ShapeFault Action
  | .click, x => (Click.record.read x).map click
  | .select, x => (Select.record.read x).map select
  | .form, x => (Form.record.read x).map form
  | .formSelector, x => (FormSelector.record.read x).map formSelector
  | .scrape, x => (Scrape.record.read x).map scrape
  | .selector, x => (Selector.record.read x).map selector

theorem type_of_read {t : StepType} {x : Json} {a : Action} (h : read t x = .ok a) : a.type = t := by
  cases t with
  | click | select | form | formSelector | scrape | selector =>
    obtain ⟨b, -, rfl⟩ := Except.map_eq_ok_iff.1 h
    rfl

/-- The attributes of an action, in declared order. -/
def write : Action → Json
  | click a => Click.record.write a
  | select a => Select.record.write a
  | form a => Form.record.write a
  | formSelector a => FormSelector.record.write a
  | scrape a => Scrape.record.write a
  | selector a => Selector.record.write a

/-- The attributes of an action, sorted by key at every depth. -/
def attributes (a : Action) : Members :=
  (a.write.canonical.members?).getD []

end Action

end SiteScript
