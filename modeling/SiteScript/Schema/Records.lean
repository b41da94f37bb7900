import SiteScript.Schema.Basic
import SiteScript.Step.Basic

/-!
# The schemas of the records

One schema for every record of the library, and `Registry.schema` for the attributes of a step type.
-/

namespace SiteScript.Schema

/-! ## Sites -/

/-- Credentials. -/
def credentials : Schema where
  title := "Credentials"
  description := "HTTP basic auth credentials; both or neither must be set"
  properties := [⟨"user", none, .textOrNull none⟩, ⟨"pass", none, .textOrNull none⟩]

/-- Step definitions. -/
def stepDefinition : Schema where
  title := "StepDefinition"
  description :=
    "Plain step descriptor, exactly as stored by an editor\n\n" ++
      "Variant-specific attributes (`key`, `fields`, ...) live in `attributes`\n" ++
      "and are only interpreted during validation."
  properties := [
    ⟨"type", some ("Step type tag (" ++
      ", ".intercalate (StepType.all.map fun t => "`" ++ t.tag ++ "`") ++ ")"),
      .textOrNull (some "")⟩,
    ⟨"name", some "Step name, unique within a site", .textOrNull (some "")⟩]
  isOpen := true

/-- Site definitions. -/
def siteDefinition : Schema where
  title := "SiteDefinition"
  description := "Plain site definition, as stored by an editor"
  properties := [
    ⟨"name", none, .textOrNull (some "")⟩,
    ⟨"url", some "Page the run starts from", .textOrNull (some "")⟩,
    ⟨"credentials", none, .recordOrNull "Credentials"⟩,
    ⟨"steps", some "Steps in execution order", .listOrNull "StepDefinition"⟩]

/-! ## Fields -/

/-- Form fields. -/
def formField : Schema where
  title := "FormField"
  description := "One input of a form step"
  properties := [
    ⟨"key", some "Input name (or selector) inside the form", .textOrNull (some "")⟩,
    ⟨"value", some "Value to fill in", .textOrNull (some "")⟩]

/-- Scrape fields. -/
def scrapeField : Schema where
  title := "ScrapeField"
  description := "One value extracted by a scrape or selector step"
  properties := [
    ⟨"name", some "Output key of the value (defaults to `key`)", .textOrNull (some "")⟩,
    ⟨"key", some "CSS selector of the element", .textOrNull (some "")⟩,
    ⟨"attribute", some "`text`, `html`, or the name of a DOM attribute (default: `text`)",
      .textOrNull (some "text")⟩]

/-- Descriptors of the values of a run. -/
def paramDescriptor : Schema where
  title := "ParamDescriptor"
  description := "An output value a compiled run will yield"
  properties := [
    ⟨"step", some "Name of the step producing the value", .text⟩,
    ⟨"name", some "Output key of the value", .text⟩,
    ⟨"key", some "CSS selector the value is read from", .text⟩,
    ⟨"attribute", some "What is extracted from the element (`text`, `html` or an attribute name)",
      .text⟩]

/-! ## Picks -/

/-- Requests to a picker. -/
def pickRequest : Schema where
  title := "SelectorRequest"
  description := "Request sent to the picker"
  properties := [
    ⟨"parentCSSSelector",
      some "Only elements under this selector can be picked (empty: whole page)", .text⟩,
    ⟨"allowedElements", some "Comma separated tag names that can be picked, or `*`", .text⟩]

/-- Answers of a picker. -/
def pick : Schema where
  title := "SelectorPick"
  description := "Selector chosen by the user"
  properties := [⟨"CSSSelector", none, .text⟩]

/-! ## Attributes of steps -/

/-- The list of inputs of a form. -/
def formFields : Property :=
  ⟨"fields", some "Inputs to fill, keyed by input name", .listOrNull "FormField"⟩

/-- Whether a form is submitted. -/
def submit : Property :=
  ⟨"submit", some "Submit the form after filling it (default: true)", .bool true⟩

/-- The attributes of a step type. -/
def attributes : StepType → Schema
  | .click => {
      title := "ClickParams"
      description := "Attributes of a click step"
      properties := [⟨"key", some "CSS selector of the element to click", .textOrNull (some "")⟩] }
  | .select => {
      title := "SelectParams"
      description := "Attributes of a select step"
      properties := [
        ⟨"key", some "CSS selector of the `<select>` control", .textOrNull (some "")⟩,
        ⟨"value", some "Option value to select", .textOrNull (some "")⟩] }
  | .form => {
      title := "FormParams"
      description := "Attributes of a form step"
      properties := [formFields, submit] }
  | .formSelector => {
      title := "FormSelectorParams"
      description := "Attributes of a form selector step"
      properties := [
        ⟨"key", some "CSS selector of the form to fill", .textOrNull (some "")⟩,
        formFields, submit] }
  | .scrape => {
      title := "ScrapeParams"
      description := "Attributes of a scrape step"
      properties := [
        ⟨"fields", some "Values to extract from the page", .listOrNull "ScrapeField"⟩] }
  | .selector => {
      title := "SelectorParams"
      description := "Attributes of a selector step"
      properties := [
        ⟨"scoped",
          some "Scope field lookups under `container` (default: whether `container` is set)",
          .boolOrNull⟩,
        ⟨"container", some "CSS selector of the repeated container element",
          .textOrNull (some "")⟩,
        ⟨"fields", some "Values to extract from each container", .listOrNull "ScrapeField"⟩] }

/-- The schemas that the attributes of a step type refer to. -/
def attributeFields : StepType → List Schema
  | .click | .select => []
  | .form | .formSelector => [formField]
  | .scrape | .selector => [scrapeField]

/-! ## Documents -/

/-- The schema of step types, which are strings. -/
def stepTypeDocument : Json :=
  Json.canonical (.obj [
    dialect, ("description", .str "Closed set of step type tags"),
    ("enum", .arr (StepType.all.map fun t => .str t.tag)), ("title", .str "StepType"),
    ("type", .str "string")])

/-- The schema of site definitions with the records it refers to. -/
def siteDocument : Json :=
  siteDefinition.document [credentials, stepDefinition]

/-- The schema of the attributes of a step type with the records it refers to. -/
def attributesDocument (t : StepType) : Json :=
  (attributes t).document (attributeFields t)

end SiteScript.Schema

namespace SiteScript

/-- The schema of the attributes of a known step type. -/
def Registry.schema (r : Registry) (t : StepType) : Except Fault Json := do
  r.expect t
  .ok (Schema.attributesDocument t)

end SiteScript
