import SiteScript.Proofs.Script.Source
import SiteScript.Proofs.Step.ListTokens
import SiteScript.Step.Basic

/-!
# Tokens of steps

The tokens of the script of every action (`Action.tokens`, `Action.render_eq_tokens`).  Besides the
contents of literals they depend on `Action.shape` only, and the texts that their literals stand for are
`Action.literals`; every text of a user is one of these.
-/

namespace SiteScript

open Template Token

/-! ## Templates -/

/-- The literals and slots in the template of a type. -/
def StepType.holes : StepType → List Part
  | click => [.filled "key", .filled "key"]
  | select =>
    [.filled "key", .fixed "HTMLEvents", .fixed "change", .filled "key", .filled "value"]
  | form => [.fixed "form", .fixed "form", .slot "fields", .slot "submit"]
  | formSelector => [.filled "key", .filled "key", .slot "fields", .slot "submit"]
  | scrape => [.slot "waits", .fixed "text", .fixed "html", .slot "fields", .filled "name"]
  | selector => [.slot "waits", .filled "container", .slot "fields", .filled "name"]

theorem StepType.legible_template (t : StepType) : t.template.Legible := by
  cases t
  all_goals
    simp only [template, clickTemplate, selectTemplate, formTemplate, formSelectorTemplate,
      scrapeTemplate, selectorTemplate, Legible, ofLines, List.flatMap_cons, List.flatMap_nil,
      List.cons_append, List.nil_append, legible]
    repeat rw [String.toList_ofList]
    decide +kernel

/-- The source of the template of a click. -/
example : StepType.clickTemplate.source =
    "casper.then(function() \x7b\n" ++
      "    this.waitForSelector('\x7b\x7bkey\x7d\x7d', function() \x7b\n" ++
      "        this.click('\x7b\x7bkey\x7d\x7d');\n" ++
      "    \x7d);\n" ++
      "\x7d);\n" := by
  rfl

theorem StepType.readsAs_template (t : StepType) : readsAs t.holes t.template = true := by
  cases t
  all_goals
    simp only [template, clickTemplate, selectTemplate, formTemplate, formSelectorTemplate,
      scrapeTemplate, selectorTemplate, holes, Part.fixed, readsAs, symbols, ofLines,
      List.flatMap_cons, List.flatMap_nil, List.cons_append, List.nil_append, pieceSymbols]
    repeat rw [String.toList_ofList]
    decide +kernel

/-! ## Filling the templates -/

namespace Action

/-- The texts in the literals of an action's script, by the names of their slots. -/
def contents (step : String) : Action → List (String × String)
  | click a => [("key", a.key)]
  | select a => [("key", a.key), ("value", a.value)]
  | form _ => []
  | formSelector a => [("key", a.key)]
  | scrape _ => [("name", step)]
  | selector a => [("container", a.container), ("name", step)]

/-- The tokens in the code of an action's script, by the names of their slots. -/
def codes : Action → List (String × List Token)
  | click _ | select _ => []
  | form a => [("fields", entryTokens a.fields), ("submit", flagTokens a.submit)]
  | formSelector a => [("fields", entryTokens a.fields), ("submit", flagTokens a.submit)]
  | scrape a =>
    [("waits", waitTokens (a.fields.map ScrapeField.key)), ("fields", fieldTokens a.fields)]
  | selector a => [("waits", waitTokens a.awaited), ("fields", fieldTokens a.fields)]

/-- What is filled into the template of an action. -/
def filling (step : String) (a : Action) : Filling :=
  .ofLists (a.contents step) a.codes

/-- The tokens of an action's script before it is laid out. -/
def tokens (step : String) (a : Action) : List Token :=
  fill (a.filling step) a.type.template.parts

theorem bound_holes (step : String) (a : Action) :
    ∀ p ∈ a.type.holes, p.Bound (a.bindings step) (a.filling step) := by
  cases a with
  | click a =>
    simp only [type, StepType.holes, List.forall_mem_cons]
    exact ⟨bound_filled rfl, bound_filled rfl, nofun⟩
  | select a =>
    simp only [type, StepType.holes, List.forall_mem_cons]
    exact ⟨bound_filled rfl, bound_fixed _ _ _, bound_fixed _ _ _, bound_filled rfl,
      bound_filled rfl, nofun⟩
  | form a =>
    simp only [type, StepType.holes, List.forall_mem_cons]
    exact ⟨bound_fixed _ _ _, bound_fixed _ _ _, bound_slot rfl (toList_entries _),
      bound_slot rfl (toList_toString _), nofun⟩
  | formSelector a =>
    simp only [type, StepType.holes, List.forall_mem_cons]
    exact ⟨bound_filled rfl, bound_filled rfl, bound_slot rfl (toList_entries _),
      bound_slot rfl (toList_toString _), nofun⟩
  | scrape a =>
    simp only [type, StepType.holes, List.forall_mem_cons]
    exact ⟨bound_slot rfl (toList_waits _), bound_fixed _ _ _, bound_fixed _ _ _,
      bound_slot rfl (toList_literal _), bound_filled rfl, nofun⟩
  | selector a =>
    simp only [type, StepType.holes, List.forall_mem_cons]
    exact ⟨bound_slot rfl (toList_waits _), bound_filled rfl, bound_slot rfl (toList_literal _),
      bound_filled rfl, nofun⟩

/-- The script of an action is that of the parts of its template. -/
theorem render_eq_template (step : String) (a : Action) :
    a.render step = a.type.template.render (a.bindings step) :=
  supplant_source a.type.legible_template _

/-- An action is always rendered, to the text of its tokens. -/
theorem render_eq_tokens (step : String) (a : Action) :
    a.render step = .ok (String.ofList (text (a.tokens step))) := by
  rw [render_eq_template]
  obtain ⟨hread, -, hholes⟩ := read_of_readsAs (StepType.readsAs_template a.type)
  exact render_eq_text hread (bound_of_holes (hholes ▸ a.bound_holes step))

theorem fits_codes (a : Action) : ∀ c ∈ a.codes, Fits c.2 := by
  cases a with
  | click a => exact nofun
  | select a => exact nofun
  | form a =>
    simp only [codes, List.forall_mem_cons]
    exact ⟨fits_entryTokens _, fits_flagTokens _, nofun⟩
  | formSelector a =>
    simp only [codes, List.forall_mem_cons]
    exact ⟨fits_entryTokens _, fits_flagTokens _, nofun⟩
  | scrape a =>
    simp only [codes, List.forall_mem_cons]
    exact ⟨fits_waitTokens _, fits_fieldTokens _, nofun⟩
  | selector a =>
    simp only [codes, List.forall_mem_cons]
    exact ⟨fits_waitTokens _, fits_fieldTokens _, nofun⟩

theorem fits_code (step : String) (a : Action) (name : String) : Fits ((a.filling step).code name) :=
  Filling.forall_code ⟨nofun, fun _ => rfl⟩ a.fits_codes name

/-- The script of an action is a block of code whatever texts it holds. -/
theorem block_tokens (step : String) (a : Action) : Block (a.tokens step) := by
  obtain ⟨hread, hblock, -⟩ := read_of_readsAs (StepType.readsAs_template a.type)
  exact block_fill hblock (Part.sound_of_read hread nofun) (fun name => (a.fits_code step name).plain)
    fun name => (a.fits_code step name).neutral

/-! ## Shapes -/

/-- What the script of a step depends on apart from texts: its type, its number of fields, whether a
form is submitted and whether fields are looked up in a container. -/
inductive Shape where
  | click
  | select
  | form (fields : Nat) (submit : Bool)
  | formSelector (fields : Nat) (submit : Bool)
  | scrape (fields : Nat)
  | selector (fields : Nat) (isScoped : Bool)
deriving DecidableEq, Repr

/-- The shape of an action. -/
def shape : Action → Shape
  | click _ => .click
  | select _ => .select
  | form a => .form a.fields.length a.submit
  | formSelector a => .formSelector a.fields.length a.submit
  | scrape a => .scrape a.fields.length
  | selector a => .selector a.fields.length a.isScoped

namespace Shape

/-- The type of the actions of a shape. -/
def type : Shape → StepType
  | click => .click
  | select => .select
  | form .. => .form
  | formSelector .. => .formSelector
  | scrape _ => .scrape
  | selector .. => .selector

/-- The entries of a form as they are for blank fields. -/
def entries (fields : Nat) : List Token :=
  entryTokens (List.replicate fields {})

/-- The calls that wait for selectors as they are for blank selectors. -/
def waits (selectors : Nat) : List Token :=
  waitTokens (List.replicate selectors "")

/-- The list of scrape fields as it is for blank fields. -/
def fieldList (fields : Nat) : List Token :=
  fieldTokens (List.replicate fields {})

/-- The code in the script of a shape, as it is for blank texts. -/
def codes : Shape → List (String × List Token)
  | click | select => []
  | form n submit => [("fields", entries n), ("submit", flagTokens submit)]
  | formSelector n submit => [("fields", entries n), ("submit", flagTokens submit)]
  | scrape n => [("waits", waits n), ("fields", fieldList n)]
  | selector n isScoped =>
    [("waits", waits (if isScoped then 1 else n)), ("fields", fieldList n)]

end Shape

theorem type_shape (a : Action) : a.shape.type = a.type := by
  cases a <;> rfl

theorem length_awaited (s : Selector) :
    s.awaited.length = if s.isScoped then 1 else s.fields.length := by
  rw [Selector.awaited]
  cases s.isScoped with
  | true => rfl
  | false => exact List.length_map _

/-- What stands in the code depends on the shape only, apart from the contents of literals. -/
theorem outline_codes (a : Action) :
    (a.codes.map fun c => (c.1, c.2.map outline)) =
      a.shape.codes.map fun c => (c.1, c.2.map outline) := by
  have hentries (fs : List FormField) :
      (entryTokens fs).map outline = (Shape.entries fs.length).map outline :=
    outline_entryTokens List.length_replicate.symm
  have hwaits {n : Nat} (ss : List String) (h : ss.length = n) :
      (waitTokens ss).map outline = (Shape.waits n).map outline :=
    outline_waitTokens (h.trans List.length_replicate.symm)
  have hfields (fs : List ScrapeField) :
      (fieldTokens fs).map outline = (Shape.fieldList fs.length).map outline :=
    outline_fieldTokens List.length_replicate.symm
  cases a with
  | click a => rfl
  | select a => rfl
  | form a => simp only [codes, shape, Shape.codes, List.map_cons, hentries]
  | formSelector a => simp only [codes, shape, Shape.codes, List.map_cons, hentries]
  | scrape a =>
    simp only [codes, shape, Shape.codes, List.map_cons, hfields, hwaits _ (List.length_map _)]
  | selector a =>
    simp only [codes, shape, Shape.codes, List.map_cons, hfields, hwaits _ (length_awaited a)]

/-- Scripts of actions of one shape differ in the contents of literals only. -/
theorem outline_tokens {a b : Action} (h : a.shape = b.shape) (step other : String) :
    (a.tokens step).map outline = (b.tokens other).map outline := by
  have htype : a.type = b.type := by rw [← type_shape, h, type_shape]
  rw [tokens, tokens, htype]
  refine map_outline_fill (fun name => ?_) _
  rw [filling, filling, Filling.outline_code, Filling.outline_code, outline_codes, h, outline_codes]

/-! ## Literals -/

/-- The texts of the literals in the script of an action, in order. -/
def literals (step : String) : Action → List String
  | click a => [a.key, a.key]
  | select a => [a.key, "HTMLEvents", "change", a.key, a.value]
  | form a => ["form", "form"] ++ a.fields.flatMap fun f => [f.key, f.value]
  | formSelector a => [a.key, a.key] ++ a.fields.flatMap fun f => [f.key, f.value]
  | scrape a =>
    a.fields.map ScrapeField.key ++ ["text", "html"] ++ a.fields.flatMap ScrapeField.literals ++ [step]
  | selector a => a.awaited ++ [a.container] ++ a.fields.flatMap ScrapeField.literals ++ [step]

/-- The literals in the script of an action stand for exactly the texts that were put into them. -/
theorem values_tokens (step : String) (a : Action) : values (a.tokens step) = a.literals step := by
  obtain ⟨-, -, hholes⟩ := read_of_readsAs (StepType.readsAs_template a.type)
  have hslot (f : Filling) (name : String) :
      values ((Part.slot name).tokens f) = values (f.code name) := rfl
  rw [tokens, values_fill, hholes]
  cases a with
  | click a =>
    simp only [type, StepType.holes, List.flatMap_cons, List.flatMap_nil, values_filled]
    rfl
  | select a =>
    simp only [type, StepType.holes, List.flatMap_cons, List.flatMap_nil, values_filled, values_fixed]
    rfl
  | form a =>
    have hfields : values (((form a).filling step).code "fields") = _ := values_entryTokens a.fields
    have hsubmit : values (((form a).filling step).code "submit") = _ := values_flagTokens a.submit
    simp only [type, StepType.holes, List.flatMap_cons, List.flatMap_nil, values_fixed, hslot, hfields,
      hsubmit, List.append_nil]
    rfl
  | formSelector a =>
    have hfields : values (((formSelector a).filling step).code "fields") = _ :=
      values_entryTokens a.fields
    have hsubmit : values (((formSelector a).filling step).code "submit") = _ :=
      values_flagTokens a.submit
    simp only [type, StepType.holes, List.flatMap_cons, List.flatMap_nil, values_filled, hslot, hfields,
      hsubmit, List.append_nil]
    rfl
  | scrape a =>
    have hwaits : values (((scrape a).filling step).code "waits") = _ := values_waitTokens _
    have hfields : values (((scrape a).filling step).code "fields") = _ := values_fieldTokens a.fields
    simp only [type, StepType.holes, List.flatMap_cons, List.flatMap_nil, values_filled, values_fixed,
      hslot, hwaits, hfields, List.append_nil, literals, List.append_assoc]
    rfl
  | selector a =>
    have hwaits : values (((selector a).filling step).code "waits") = _ := values_waitTokens _
    have hfields : values (((selector a).filling step).code "fields") = _ :=
      values_fieldTokens a.fields
    simp only [type, StepType.holes, List.flatMap_cons, List.flatMap_nil, values_filled, hslot, hwaits,
      hfields, List.append_nil, literals, List.append_assoc]
    rfl

end Action

/-! ## Laid out scripts -/

namespace Step

/-- The tokens of a step's script. -/
def tokens (w : IndentWidth) (s : Step) : List Token :=
  Token.layout w (s.action.tokens s.name)

/-- The script of a step is always written. -/
theorem script_eq_tokens (w : IndentWidth) (s : Step) :
    s.script w = .ok (String.ofList (text (s.tokens w))) := by
  rw [script_eq, Action.render_eq_tokens, tokens,
    ← layout_text (s.action.block_tokens s.name).plain w]
  rfl

theorem plain_tokens (w : IndentWidth) (s : Step) : ∀ t ∈ s.tokens w, t.Plain :=
  plain_layout (s.action.block_tokens s.name).plain w

theorem outline_tokens {s t : Step} (h : s.action.shape = t.action.shape) (w : IndentWidth) :
    (s.tokens w).map outline = (t.tokens w).map outline := by
  rw [tokens, tokens, map_outline_layout, map_outline_layout, Action.outline_tokens h s.name t.name]

theorem values_tokens (w : IndentWidth) (s : Step) :
    values (s.tokens w) = s.action.literals s.name := by
  rw [tokens, values_layout, Action.values_tokens]

end Step

end SiteScript
