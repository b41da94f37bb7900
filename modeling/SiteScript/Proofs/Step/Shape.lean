import SiteScript.Proofs.Json.Acceptance
import SiteScript.Step.Action

/-!
# Shapes of attributes

`StepType.shapes` lists the attributes that a type of step declares, with the values that each of them
may have.  Attributes are read if and only if those that are declared have such values
(`Action.exists_read_iff`); the others are passed over (`Action.read_filter`).
-/

namespace SiteScript

/-! ## Fields -/

/-- The members of a form field, in the order in which an array lists them. -/
def FormField.names : List String := ["key", "value"]

/-- The members of a scrape field, in the order in which an array lists them. -/
def ScrapeField.names : List String := ["name", "key", "attribute"]

namespace Json

/-- A field with members of some names: an object in which they are null or strings, or an array of
nulls and strings that has no more items than there are names. -/
def IsField (names : List String) : Json → Prop
  | obj ms => ∀ n ∈ ms, n.1 ∈ names → n.2.IsText
  | arr xs => xs.length ≤ names.length ∧ ∀ x ∈ xs, x.IsText
  | _ => False

/-- Null or an array of fields. -/
def IsFields (names : List String) : Json → Prop
  | null => True
  | arr xs => ∀ x ∈ xs, x.IsField names
  | _ => False

theorem exists_orBlank_asList_iff {α : Type} {item : Json → Except ShapeFault α}
    {names : List String} (h : ∀ x, (∃ y, item x = .ok y) ↔ x.IsField names) (x : Json) :
    (∃ ys, orBlank [] (asList item) x = .ok ys) ↔ x.IsFields names := by
  cases x with
  | arr xs =>
    simp only [orBlank, asList, IsFields, exists_mapM_eq_ok_iff, h]
  | null | bool | num | str | obj => simp [orBlank, asList, IsFields]

end Json

/-- A record of texts is read from fields, and from nothing else. -/
theorem Record.exists_read_field_iff {α : Type} {r : Record α} {names : List String}
    (hmembers : r.members.map Member.name = names) (hnames : names.Nodup)
    (htexts : ∀ m ∈ r.members, m.Takes Json.IsText) (x : Json) :
    (∃ y, r.read x = .ok y) ↔ x.IsField names := by
  subst hmembers
  cases x with
  | obj ms =>
    have hdeclares : r.Declares (r.members.map fun m => (m.name, Json.IsText)) :=
      List.forall₂_map_right_iff.2 (List.forall₂_same.2 fun m hm => ⟨rfl, htexts m hm⟩)
    have hkeys : ((r.members.map fun m => (m.name, Json.IsText)).map Prod.fst).Nodup := by
      rwa [List.map_map]
    rw [exists_read_obj_iff hdeclares hkeys, Json.IsField]
    refine forall₂_congr fun n _ => ⟨fun h hn => ?_, fun h p hp => ?_⟩
    · obtain ⟨m, hm, hname⟩ := List.mem_map.1 hn
      exact h _ (List.mem_map.2 ⟨m, hm, by rw [hname]⟩)
    · obtain ⟨m, hm, heq⟩ := List.mem_map.1 hp
      obtain ⟨hname, rfl⟩ := Prod.mk.inj heq
      exact h (List.mem_map.2 ⟨m, hm, hname⟩)
  | arr xs => rw [read, exists_readItems_iff htexts, Json.IsField, List.length_map]
  | null | bool | num | str => simp [read, Json.IsField]

theorem FormField.exists_read_iff (x : Json) :
    (∃ f, record.read x = .ok f) ↔ x.IsField names := by
  refine Record.exists_read_field_iff rfl (by decide) (fun m hm => ?_) x
  obtain rfl | rfl : m = _ ∨ m = _ := by simpa [record] using hm
  all_goals exact .text

theorem ScrapeField.exists_read_iff (x : Json) :
    (∃ f, record.read x = .ok f) ↔ x.IsField names := by
  refine Record.exists_read_field_iff rfl (by decide) (fun m hm => ?_) x
  obtain rfl | rfl | rfl : m = _ ∨ m = _ ∨ m = _ := by simpa [record] using hm
  all_goals exact .text

theorem Member.Takes.formFields {α : Type} {get : α → List FormField}
    {set : List FormField → α → α} :
    (Member.list "fields" FormField.record.read FormField.record.write get set).Takes
      (Json.IsFields FormField.names) :=
  .optional (Json.exists_orBlank_asList_iff FormField.exists_read_iff)

theorem Member.Takes.scrapeFields {α : Type} {get : α → List ScrapeField}
    {set : List ScrapeField → α → α} :
    (Member.list "fields" ScrapeField.record.read ScrapeField.record.write get set).Takes
      (Json.IsFields ScrapeField.names) :=
  .optional (Json.exists_orBlank_asList_iff ScrapeField.exists_read_iff)

/-! ## Attributes -/

namespace StepType

open Json

/-- The attributes that a type declares, and the values that each of them may have. -/
def shapes : StepType → List (String × (Json → Prop))
  | click => [("key", IsText)]
  | select => [("key", IsText), ("value", IsText)]
  | form => [("fields", IsFields FormField.names), ("submit", IsFlag)]
  | formSelector => [("key", IsText), ("fields", IsFields FormField.names), ("submit", IsFlag)]
  | scrape => [("fields", IsFields ScrapeField.names)]
  | selector =>
    [("scoped", IsChoice), ("container", IsText), ("fields", IsFields ScrapeField.names)]

/-- The keys of the attributes that a type declares. -/
def declared (t : StepType) : List String :=
  t.shapes.map Prod.fst

/-- Every attribute that is declared has one of the values that it may have. -/
def WellShaped (t : StepType) (ms : Members) : Prop :=
  ∀ n ∈ ms, ∀ p, (n.1, p) ∈ t.shapes → p n.2

theorem nodup_declared (t : StepType) : t.declared.Nodup := by
  cases t <;> decide

end StepType

theorem Click.declares : record.Declares StepType.click.shapes :=
  .cons ⟨rfl, .text⟩ .nil

theorem Select.declares : record.Declares StepType.select.shapes :=
  .cons ⟨rfl, .text⟩ (.cons ⟨rfl, .text⟩ .nil)

theorem Form.declares : record.Declares StepType.form.shapes :=
  .cons ⟨rfl, .formFields⟩ (.cons ⟨rfl, .optional Json.exists_asBool_iff⟩ .nil)

theorem FormSelector.declares : record.Declares StepType.formSelector.shapes :=
  .cons ⟨rfl, .text⟩ (.cons ⟨rfl, .formFields⟩ (.cons ⟨rfl, .optional Json.exists_asBool_iff⟩ .nil))

theorem Scrape.declares : record.Declares StepType.scrape.shapes :=
  .cons ⟨rfl, .scrapeFields⟩ .nil

theorem Selector.declares : record.Declares StepType.selector.shapes :=
  .cons ⟨rfl, .optional Json.exists_asOption_asBool_iff⟩
    (.cons ⟨rfl, .text⟩ (.cons ⟨rfl, .scrapeFields⟩ .nil))

/-- Members that are not declared are passed over. -/
theorem Record.Declares.read_filter {α : Type} {r : Record α} {t : StepType}
    (h : r.Declares t.shapes) (ms : Members) :
    r.read (.obj (ms.filter fun n => n.1 ∈ t.declared)) = r.read (.obj ms) := by
  have hdeclared : ∀ m ∈ r.members, decide (m.name ∈ t.declared) = true := by
    intro m hm
    rw [decide_eq_true_iff, StepType.declared, ← h.names]
    exact List.mem_map_of_mem hm
  rw [r.read_obj h.required, r.read_obj h.required]
  exact Record.readMembers_filter (fun key => decide (key ∈ t.declared)) hdeclared _ ms

namespace Action

/-- Attributes are read if and only if they are well shaped. -/
theorem exists_read_iff (t : StepType) (ms : Members) :
    (∃ a, read t (.obj ms) = .ok a) ↔ t.WellShaped ms := by
  have hkeys := t.nodup_declared
  cases t with
  | click => exact exists_map_eq_ok_iff.trans (Record.exists_read_obj_iff Click.declares hkeys ms)
  | select => exact exists_map_eq_ok_iff.trans (Record.exists_read_obj_iff Select.declares hkeys ms)
  | form => exact exists_map_eq_ok_iff.trans (Record.exists_read_obj_iff Form.declares hkeys ms)
  | formSelector =>
    exact exists_map_eq_ok_iff.trans (Record.exists_read_obj_iff FormSelector.declares hkeys ms)
  | scrape => exact exists_map_eq_ok_iff.trans (Record.exists_read_obj_iff Scrape.declares hkeys ms)
  | selector =>
    exact exists_map_eq_ok_iff.trans (Record.exists_read_obj_iff Selector.declares hkeys ms)

/-- Attributes that the type does not declare change nothing. -/
theorem read_filter (t : StepType) (ms : Members) :
    read t (.obj (ms.filter fun n => n.1 ∈ t.declared)) = read t (.obj ms) := by
  cases t with
  | click => exact congrArg (Except.map click) (Click.declares.read_filter ms)
  | select => exact congrArg (Except.map select) (Select.declares.read_filter ms)
  | form => exact congrArg (Except.map form) (Form.declares.read_filter ms)
  | formSelector => exact congrArg (Except.map formSelector) (FormSelector.declares.read_filter ms)
  | scrape => exact congrArg (Except.map scrape) (Scrape.declares.read_filter ms)
  | selector => exact congrArg (Except.map selector) (Selector.declares.read_filter ms)

end Action

end SiteScript
