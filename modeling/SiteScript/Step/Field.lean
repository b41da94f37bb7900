import SiteScript.Json.Record

/-!
# Fields

The entries of the field lists of steps: what a form is filled with, what is scraped from a page,
and the descriptors of scraped values.
-/

namespace SiteScript

/-- One input of a form. -/
structure FormField where
  key : String := ""
  value : String := ""
deriving DecidableEq, Repr

/-- A form field in JSON. -/
def FormField.record : Record FormField where
  name := "FormField"
  blank := {}
  members :=
    [.text "key" FormField.key fun s f => { f with key := s },
      .text "value" FormField.value fun s f => { f with value := s }]

/-- One value that is taken from an element. -/
structure ScrapeField where
  /-- The name of the value in the output. -/
  name : String := ""
  /-- The selector of the element. -/
  key : String := ""
  /-- What is taken: the text, the markup or an attribute. -/
  extract : String := "text"
deriving DecidableEq, Repr

/-- A scrape field in JSON. An absent attribute is the text, a null one the empty attribute. -/
def ScrapeField.record : Record ScrapeField where
  name := "ScrapeField"
  blank := {}
  members :=
    [.text "name" ScrapeField.name fun s f => { f with name := s },
      .text "key" ScrapeField.key fun s f => { f with key := s },
      .text "attribute" ScrapeField.extract fun s f => { f with extract := s }]

/-- The field with its key for an empty name and the text for an empty attribute. -/
def ScrapeField.normalize (f : ScrapeField) : ScrapeField where
  name := if f.name = "" then f.key else f.name
  key := f.key
  extract := if f.extract = "" then "text" else f.extract

theorem ScrapeField.normalize_normalize (f : ScrapeField) :
    f.normalize.normalize = f.normalize := by
  by_cases hn : f.name = "" <;> by_cases ha : f.extract = "" <;>
    simp [ScrapeField.normalize, hn, ha]

/-- A value that a run of the script yields. -/
structure ParamDescriptor where
  /-- The name of the step that yields it. -/
  step : String
  /-- Its name in the output. -/
  name : String
  /-- The selector of the element it is read from. -/
  key : String
  extract : String
deriving DecidableEq, Repr

/-- A descriptor in JSON. -/
def ParamDescriptor.record : Record ParamDescriptor where
  name := "ParamDescriptor"
  blank := ⟨"", "", "", ""⟩
  members :=
    [.requiredText "step" ParamDescriptor.step fun s p => { p with step := s },
      .requiredText "name" ParamDescriptor.name fun s p => { p with name := s },
      .requiredText "key" ParamDescriptor.key fun s p => { p with key := s },
      .requiredText "attribute" ParamDescriptor.extract fun s p => { p with extract := s }]

/-- The descriptor of a field of a step. -/
def ScrapeField.descriptor (step : String) (f : ScrapeField) : ParamDescriptor :=
  ⟨step, f.name, f.key, f.extract⟩

end SiteScript
