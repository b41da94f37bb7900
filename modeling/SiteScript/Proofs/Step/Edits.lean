import SiteScript.Proofs.Site.Preview
import SiteScript.Proofs.Step.Parts
import SiteScript.Proofs.Step.Requirements

/-!
# Attributes that are put in place

A value that is put under a key of raw attributes, and one that is put under that key of stored ones,
can make the same change to the action of a step (`Edits`): what is read changes by it, and so does what
is stored.  The keys, the container, its use, and the fields of an action are changed in this way.
-/

namespace SiteScript

open Json

theorem Json.canonical_str (s : String) : (str s).canonical = str s := by
  rw [canonical]

theorem Json.canonical_bool (b : Bool) : (bool b).canonical = bool b := by
  rw [canonical]

namespace Action

/-- The action with a key, if its type has one. -/
def withKey (key : String) : Action → Action
  | click a => click { a with key }
  | select a => select { a with key }
  | formSelector a => formSelector { a with key }
  | a => a

/-- The action with a container, if its type has one. -/
def withContainer (container : String) : Action → Action
  | selector a => selector { a with container }
  | a => a

/-- The action with the use of the container said, if its type has one. -/
def withScope (on : Bool) : Action → Action
  | selector a => selector { a with scope := some on }
  | a => a

/-- The action with fields whose values it takes from the page, if its type has them. -/
def withExtracted (fields : List ScrapeField) : Action → Action
  | scrape a => scrape { a with fields }
  | selector a => selector { a with fields }
  | a => a

end Action

/-- Putting `v` under a key of the attributes from which actions of a type are read, and `w` under that
key of those that are stored, changes the actions by `change`. -/
structure Edits (t : StepType) (key : String) (v w : Json) (change : Action → Action) : Prop where
  read : ∀ {ms : Members} {a : Action}, ms.Sorted → Action.read t (.obj ms) = .ok a →
    Action.read t (.obj (ms.insert key v)) = .ok (change a)
  stored : ∀ {a : Action}, a.type = t → a.attributes.insert key w = (change a).attributes

/-- A change that one member of the attributes of a type makes. -/
theorem Edits.of_record {α : Type} {r : Record α} {t : StepType} (wrap : α → Action)
    {change : Action → Action} {key : String} {v u w : Json} {m : Member α} {f : α → α}
    (hread : ∀ x, Action.read t x = (r.read x).map wrap) (hwrite : ∀ x, (wrap x).write = r.write x)
    (hparts : r.Parts r.written) (hrecoverable : ∀ x, r.Recoverable x)
    (hmember : (r.members.find? fun m => m.name = key) = some m) (hf : m.read v = .ok f)
    (hm : ∀ x, m.write (f x) = some u) (hu : u.canonical = w)
    (hchange : ∀ x, change (wrap x) = wrap (f x)) : Edits t key v w change := by
  obtain ⟨hmem, rfl⟩ := Record.mem_of_find? hmember
  constructor
  · intro ms a hms ha
    rw [hread] at ha ⊢
    obtain ⟨x, hx, rfl⟩ := Except.map_eq_ok_iff.1 ha
    rw [hparts.read_insert (fun _ _ => Record.eq_of_parts_written hrecoverable) hmem hf hmember hms hx,
      hchange]
    rfl
  · rintro a rfl
    have hstored := a.read_canonical
    rw [hread] at hstored
    obtain ⟨x, -, rfl⟩ := Except.map_eq_ok_iff.1 hstored
    rw [Action.attributes_of_write (hwrite x), hchange, Action.attributes_of_write (hwrite (f x)),
      ← hu]
    exact hparts.sorted_insert (hrecoverable x).nodup hmem hf (hm x)

namespace Edits

variable (s : String) (on : Bool)

theorem click_key : Edits .click "key" (.str s) (.str s) (Action.withKey s) :=
  of_record Action.click (fun _ => rfl) (fun _ => rfl) Click.record_parts Click.recoverable rfl rfl
    (fun _ => rfl) (canonical_str s) fun _ => rfl

theorem select_key : Edits .select "key" (.str s) (.str s) (Action.withKey s) :=
  of_record Action.select (fun _ => rfl) (fun _ => rfl) Select.record_parts Select.recoverable rfl
    rfl (fun _ => rfl) (canonical_str s) fun _ => rfl

theorem formSelector_key : Edits .formSelector "key" (.str s) (.str s) (Action.withKey s) :=
  of_record Action.formSelector (fun _ => rfl) (fun _ => rfl) FormSelector.record_parts
    FormSelector.recoverable rfl rfl (fun _ => rfl) (canonical_str s) fun _ => rfl

theorem container : Edits .selector "container" (.str s) (.str s) (Action.withContainer s) :=
  of_record Action.selector (fun _ => rfl) (fun _ => rfl) Selector.record_parts
    Selector.recoverable rfl rfl (fun _ => rfl) (canonical_str s) fun _ => rfl

theorem scope : Edits .selector "scoped" (.bool on) (.bool on) (Action.withScope on) :=
  of_record Action.selector (fun _ => rfl) (fun _ => rfl) Selector.record_parts
    Selector.recoverable rfl rfl (fun _ => rfl) (canonical_bool on) fun _ => rfl

/-- The fields are stored as the objects that they are in scripts. -/
theorem fields {t : StepType} (ht : t.isExtracting = true) {v : Json} {fs : List ScrapeField}
    (hv : orBlank [] (asList ScrapeField.record.read) v = .ok fs) :
    Edits t "fields" v (.arr (fs.map ScrapeField.json)) (Action.withExtracted fs) := by
  cases t with
  | scrape =>
    exact of_record Action.scrape (fun _ => rfl) (fun _ => rfl) Scrape.record_parts
      Scrape.recoverable rfl (congrArg (Except.map _) hv) (fun _ => rfl)
      (ScrapeField.canonical_fields fs) fun _ => rfl
  | selector =>
    exact of_record Action.selector (fun _ => rfl) (fun _ => rfl) Selector.record_parts
      Selector.recoverable rfl (congrArg (Except.map _) hv) (fun _ => rfl)
      (ScrapeField.canonical_fields fs) fun _ => rfl
  | click | select | form | formSelector => cases ht

end Edits

/-! ## Normal forms -/

namespace Action

theorem type_withContainer (s : String) (a : Action) : (a.withContainer s).type = a.type := by
  cases a <;> rfl

theorem type_withScope (on : Bool) (a : Action) : (a.withScope on).type = a.type := by
  cases a <;> rfl

theorem type_withExtracted (fs : List ScrapeField) (a : Action) :
    (a.withExtracted fs).type = a.type := by
  cases a <;> rfl

/-- Of several lists of fields the last one stays. -/
theorem withExtracted_withExtracted (fs gs : List ScrapeField) (a : Action) :
    (a.withExtracted fs).withExtracted gs = a.withExtracted gs := by
  cases a <;> rfl

theorem extracted_withExtracted {a : Action} (h : a.type.isExtracting = true)
    (fs : List ScrapeField) : (a.withExtracted fs).extracted = fs := by
  cases a with
  | scrape | selector => rfl
  | click | select | form | formSelector => cases h

theorem extracted_normalize (a : Action) :
    a.normalize.extracted = a.extracted.map ScrapeField.normalize := by
  cases a <;> rfl

theorem normalize_withKey (s : String) (a : Action) :
    (a.withKey s).normalize = a.normalize.withKey s := by
  cases a <;> rfl

theorem normalize_withExtracted (fs : List ScrapeField) (a : Action) :
    (a.withExtracted fs).normalize = a.normalize.withExtracted (fs.map ScrapeField.normalize) := by
  cases a <;> rfl

/-- A container that is said to be used stays as it is. -/
theorem normalize_withContainer (s : String) (a : Action) :
    ((a.withContainer s).withScope true).normalize =
      (a.normalize.withContainer s).withScope true := by
  cases a <;> rfl

/-- An empty container that is said not to be used stays empty. -/
theorem normalize_withScope (a : Action) :
    ((a.withScope false).withContainer "").normalize =
      (a.normalize.withScope false).withContainer "" := by
  cases a <;> rfl

/-! ## Requirements -/

theorem needs_eq_none_iff {property : Requirement} {s : String} :
    needs property s = none ↔ s ≠ "" := by
  simp [needs]

variable {a : Action} (h : a.unmet? = none)
include h

theorem unmet?_withKey {s : String} (hs : s ≠ "") : (a.withKey s).unmet? = none := by
  cases a with
  | click => exact needs_eq_none_iff.2 hs
  | select => exact orElse_eq_none_iff.2 ⟨needs_eq_none_iff.2 hs, (orElse_eq_none_iff.1 h).2⟩
  | formSelector => exact orElse_eq_none_iff.2 ⟨needs_eq_none_iff.2 hs, (orElse_eq_none_iff.1 h).2⟩
  | form | scrape | selector => exact h

theorem unmet?_withContainer {s : String} (hs : s ≠ "") :
    ((a.withContainer s).withScope true).unmet? = none := by
  cases a with
  | selector => exact orElse_eq_none_iff.2 ⟨needs_eq_none_iff.2 hs, (orElse_eq_none_iff.1 h).2⟩
  | click | select | form | formSelector | scrape => exact h

theorem unmet?_withScope : ((a.withScope false).withContainer "").unmet? = none := by
  cases a with
  | selector => exact orElse_eq_none_iff.2 ⟨rfl, (orElse_eq_none_iff.1 h).2⟩
  | click | select | form | formSelector | scrape => exact h

theorem unmet?_withExtracted {fs : List ScrapeField}
    (hfs : needsFields (fs.map ScrapeField.key) = none) : (a.withExtracted fs).unmet? = none := by
  cases a with
  | scrape => exact hfs
  | selector => exact orElse_eq_none_iff.2 ⟨(orElse_eq_none_iff.1 h).1, hfs⟩
  | click | select | form | formSelector => exact h

end Action

/-! ## Fields -/

namespace Action

variable {t : StepType} (ht : t.isExtracting = true)
include ht

/-- The fields of an action are read from the value under their key. -/
theorem extracted_of_read {ms : Members} (hms : (ms.map Prod.fst).Nodup) {a : Action}
    (h : read t (.obj ms) = .ok a) :
    orBlank [] (asList ScrapeField.record.read) ((ms.get? "fields").getD .null) =
      .ok a.extracted := by
  rw [← Members.get?_ofList_of_nodup hms]
  cases t with
  | scrape =>
    obtain ⟨b, hb, rfl⟩ := Except.map_eq_ok_iff.1 h
    show orBlank [] _ _ = .ok b.fields
    exact Scrape.declares.part_of_read rfl (fun _ _ => rfl)
      (by simp [Scrape.record, Member.list]) rfl hb
  | selector =>
    obtain ⟨b, hb, rfl⟩ := Except.map_eq_ok_iff.1 h
    show orBlank [] _ _ = .ok b.fields
    exact Selector.declares.part_of_read rfl (fun _ _ => rfl)
      (by simp [Selector.record, Member.text, Member.list, Member.keeps_optional]) rfl hb
  | click | select | form | formSelector => cases ht

/-- The fields of an action are stored as the objects that they are in scripts. -/
theorem get?_fields_attributes {a : Action} (ha : a.type = t) :
    a.attributes.get? "fields" = some (.arr (a.extracted.map ScrapeField.json)) := by
  rw [← ScrapeField.canonical_fields]
  cases a with
  | scrape a =>
    rw [attributes_of_write (r := Scrape.record) (x := a) rfl]
    exact Record.get?_sorted a.recoverable.nodup List.mem_cons_self rfl
  | selector a =>
    rw [attributes_of_write (r := Selector.record) (x := a) rfl]
    exact Record.get?_sorted a.recoverable.nodup (.tail _ (.tail _ List.mem_cons_self)) rfl
  | _ =>
    subst ha
    cases ht

end Action

end SiteScript
