/-!
# Step types

The six types of steps, with the tags that name them in definitions.
-/

namespace SiteScript

/-- What a step does. -/
inductive StepType where
  | click
  | select
  | form
  | formSelector
  | scrape
  | selector
deriving DecidableEq, Repr

namespace StepType

/-- All types, in the order in which they are listed. -/
def all : List StepType :=
  [click, select, form, formSelector, scrape, selector]

/-- The tag of a type in a definition. -/
def tag : StepType → String
  | click => "click"
  | select => "select"
  | form => "form"
  | formSelector => "form_selector"
  | scrape => "scrape"
  | selector => "selector"

/-- The name of a type in a summary. -/
def label : StepType → String
  | click => "Click"
  | select => "Select"
  | form => "Form"
  | formSelector => "FormSelector"
  | scrape => "Scrape"
  | selector => "Selector"

/-- The type with the given tag. -/
def ofTag? (s : String) : Option StepType :=
  all.find? fun t => t.tag = s

theorem mem_all (t : StepType) : t ∈ all := by
  cases t <;> decide

theorem ofTag?_tag (t : StepType) : ofTag? t.tag = some t := by
  cases t <;> decide

end StepType

end SiteScript
