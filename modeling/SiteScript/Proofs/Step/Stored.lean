import Mathlib.Data.List.Basic
import SiteScript.Proofs.Json.Record
import SiteScript.Proofs.Json.Roundtrip
import SiteScript.Step.Basic

/-!
# Stored steps

A step is stored as a definition and checked again when it is loaded.  What the check answers is
stored under the attributes of a settled action (`CheckedStep.Stores`), so it is its own answer and a
step is built of it (`Registry.map_checked_create`).  Its definition is read back from the sorted form
of what is written of it (`StepDefinition.Tidy.read_canonical`).
-/

namespace SiteScript

/-! ## Actions -/

theorem FormField.recoverable (f : FormField) : FormField.record.Recoverable f where
  nodup := by decide
  restores := by simp [FormField.record, Member.text, Except.map]
  omits := by simp [FormField.record, Member.text]
  ext := by
    cases f
    rintro ⟨⟩
    simp +contextual [FormField.record, Member.text]

theorem ScrapeField.recoverable (f : ScrapeField) : ScrapeField.record.Recoverable f where
  nodup := by decide
  restores := by simp [ScrapeField.record, Member.text, Except.map]
  omits := by simp [ScrapeField.record, Member.text]
  ext := by
    cases f
    rintro ⟨⟩
    simp +contextual [ScrapeField.record, Member.text]

theorem Click.recoverable (a : Click) : Click.record.Recoverable a where
  nodup := by decide
  restores := by simp [Click.record, Member.text, Except.map]
  omits := by simp [Click.record, Member.text]
  ext := by
    cases a
    rintro ⟨⟩
    simp +contextual [Click.record, Member.text]

theorem Select.recoverable (a : Select) : Select.record.Recoverable a where
  nodup := by decide
  restores := by simp [Select.record, Member.text, Except.map]
  omits := by simp [Select.record, Member.text]
  ext := by
    cases a
    rintro ⟨⟩
    simp +contextual [Select.record, Member.text]

theorem Form.recoverable (a : Form) : Form.record.Recoverable a where
  nodup := by decide
  restores := by
    simp [Form.record, Member.list, Record.orBlank_asList FormField.recoverable, Except.map]
  omits := by simp [Form.record, Member.list]
  ext := by
    cases a
    rintro ⟨⟩
    simp +contextual [Form.record, Member.list, Record.map_write_inj FormField.recoverable]

theorem FormSelector.recoverable (a : FormSelector) : FormSelector.record.Recoverable a where
  nodup := by decide
  restores := by
    simp [FormSelector.record, Member.text, Member.list, Record.orBlank_asList FormField.recoverable, Except.map]
  omits := by simp [FormSelector.record, Member.text, Member.list]
  ext := by
    cases a
    rintro ⟨⟩
    simp +contextual [FormSelector.record, Member.text, Member.list, Record.map_write_inj FormField.recoverable]

theorem Scrape.recoverable (a : Scrape) : Scrape.record.Recoverable a where
  nodup := by decide
  restores := by
    simp [Scrape.record, Member.list, Record.orBlank_asList ScrapeField.recoverable, Except.map]
  omits := by simp [Scrape.record, Member.list]
  ext := by
    cases a
    rintro ⟨⟩
    simp +contextual [Scrape.record, Member.list, Record.map_write_inj ScrapeField.recoverable]

theorem Selector.recoverable (a : Selector) : Selector.record.Recoverable a where
  nodup := by decide
  restores := by
    simp [Selector.record, Member.text, Member.list, Record.orBlank_asList ScrapeField.recoverable, Except.map]
  omits := by simp [Selector.record, Member.text, Member.list]
  ext := by
    cases a
    rintro ⟨⟩
    simp +contextual [Selector.record, Member.text, Member.list, Record.map_write_inj ScrapeField.recoverable]

theorem Record.readable_write {α : Type} {r : Record α} {x : α} {depth : Nat}
    (h : ∀ m ∈ r.members, ∀ v, m.write x = some v → Json.Readable depth v) :
    Json.Readable (depth + 1) (r.write x) := by
  apply Json.Readable.obj
  intro n hn
  obtain ⟨m, hm, hv⟩ := List.mem_filterMap.1 hn
  obtain ⟨v, hw, rfl⟩ := Option.map_eq_some_iff.1 hv
  exact h m hm v hw

namespace Action

/-- The attributes of an action are read back from what is stored of it. -/
theorem read_canonical (a : Action) : read a.type a.write.canonical = .ok a := by
  cases a with
  | click a => rw [type, read, write, a.recoverable.read_canonical]; rfl
  | select a => rw [type, read, write, a.recoverable.read_canonical]; rfl
  | form a => rw [type, read, write, a.recoverable.read_canonical]; rfl
  | formSelector a => rw [type, read, write, a.recoverable.read_canonical]; rfl
  | scrape a => rw [type, read, write, a.recoverable.read_canonical]; rfl
  | selector a => rw [type, read, write, a.recoverable.read_canonical]; rfl

theorem readable_formField (f : FormField) : Json.Readable 1 (FormField.record.write f) :=
  Record.readable_write (by simp [FormField.record, Member.text, Json.Readable.str])

theorem readable_scrapeField (f : ScrapeField) : Json.Readable 1 (ScrapeField.record.write f) :=
  Record.readable_write (by simp [ScrapeField.record, Member.text, Json.Readable.str])

theorem readable_fields {α : Type} {r : Record α} (h : ∀ x, Json.Readable 1 (r.write x))
    (xs : List α) : Json.Readable 2 (.arr (xs.map r.write)) :=
  .arr fun x hx => by
    obtain ⟨f, -, rfl⟩ := List.mem_map.1 hx
    exact h f

theorem readable_scope (b : Option Bool) : Json.Readable 2 (b.elim .null .bool) := by
  cases b
  · exact .null
  · exact .bool _

/-- Attributes have keys of their own and hold lists of fields and plain values. -/
theorem members_write (a : Action) :
    ∃ ms : Members, a.write = .obj ms ∧
      ∀ m ∈ ms, StepDefinition.isAttribute m.1 = true ∧ Json.Readable 2 m.2 := by
  have hform := readable_fields readable_formField
  have hscrape := readable_fields readable_scrapeField
  have hstr (s : String) : Json.Readable 2 (.str s) := .str s
  have hbool (b : Bool) : Json.Readable 2 (.bool b) := .bool b
  cases a with
  | click a =>
    refine ⟨_, rfl, ?_⟩
    simp [Click.record, Member.text, StepDefinition.isAttribute, hstr]
  | select a =>
    refine ⟨_, rfl, ?_⟩
    simp [Select.record, Member.text, StepDefinition.isAttribute, hstr]
  | form a =>
    refine ⟨_, rfl, ?_⟩
    simp [Form.record, Member.list, StepDefinition.isAttribute, hform, hbool]
  | formSelector a =>
    refine ⟨_, rfl, ?_⟩
    simp [FormSelector.record, Member.text, Member.list, StepDefinition.isAttribute, hstr, hform,
      hbool]
  | scrape a =>
    refine ⟨_, rfl, ?_⟩
    simp [Scrape.record, Member.list, StepDefinition.isAttribute, hscrape]
  | selector a =>
    refine ⟨_, rfl, ?_⟩
    simp [Selector.record, Member.text, Member.list, StepDefinition.isAttribute, hstr, hscrape,
      readable_scope]

theorem canonical_write (a : Action) : a.write.canonical = .obj a.attributes := by
  obtain ⟨ms, hms, -⟩ := a.members_write
  rw [attributes, hms, Json.canonical]
  rfl

theorem attributes_of_write {α : Type} {r : Record α} {x : α} {a : Action}
    (h : a.write = r.write x) : a.attributes = r.sorted x := by
  rw [attributes, h, Record.canonical_write]
  rfl

end Action

/-! ## Definitions -/

namespace StepDefinition

/-- A definition whose attributes are sorted at every depth and have keys of their own. -/
structure Ordered (d : StepDefinition) : Prop where
  sorted : d.attributes.Sorted
  keys : ∀ m ∈ d.attributes, isAttribute m.1 = true
  values : ∀ m ∈ d.attributes, m.2.canonical = m.2

namespace Ordered

variable {d : StepDefinition} (h : d.Ordered)
include h

theorem get?_eq_none {k : String} (hk : isAttribute k = false) : d.attributes.get? k = none := by
  rcases hv : d.attributes.get? k with _ | v
  · rfl
  · have hkey := h.keys _ (Members.mem_of_get? hv)
    rw [hk] at hkey
    cases hkey

/-- In the sorted form of what is written, the type and the name stand among the attributes. -/
theorem canonical_write : d.write.canonical =
    .obj (Members.insert "type" (.str d.tag) (Members.insert "name" (.str d.name) d.attributes)) := by
  have hname : d.attributes.get? "name" = none := h.get?_eq_none (by decide)
  have htype : d.attributes.get? "type" = none := h.get?_eq_none (by decide)
  rw [write, Json.canonical, Json.canonicalMembers, Json.canonicalMembers,
    Json.canonicalMembers_eq_self h.values, Json.canonical, Json.canonical, Json.obj.injEq]
  refine (Members.sorted_ofList _).ext ((h.sorted.insert ..).insert ..) fun k => ?_
  rw [Members.get?_ofList_cons, Members.get?_ofList_cons, h.sorted.ofList_eq, Members.get?_insert,
    Members.get?_insert]
  by_cases hk : k = "type"
  · simp [hk, htype]
  · by_cases hk' : k = "name"
    · simp [hk', hname]
    · simp [hk, hk']

/-- A definition is read back from the sorted form of what is written of it. -/
theorem read_canonical : read d.write.canonical = .ok d := by
  have hattributes : (Members.insert "type" (.str d.tag)
      (Members.insert "name" (.str d.name) d.attributes)).filter (fun m => isAttribute m.1) =
        d.attributes := by
    apply Members.Sorted.ext (((h.sorted.insert ..).insert ..).filter _) h.sorted
    intro k
    rw [Members.get?_filter, Members.get?_insert, Members.get?_insert]
    by_cases hk : isAttribute k = true
    · obtain ⟨htype, hname⟩ : k ≠ "type" ∧ k ≠ "name" := by simpa [isAttribute] using hk
      rw [if_pos hk, if_neg htype, if_neg hname]
    · rw [if_neg hk, h.get?_eq_none (by simpa using hk)]
  rw [h.canonical_write, read, hattributes, readText, readText]
  simp only [Members.get?_insert]
  rfl

end Ordered

/-- An ordered definition whose attributes are lists of fields and plain values. -/
structure Tidy (d : StepDefinition) : Prop extends Ordered d where
  readable : ∀ m ∈ d.attributes, Json.Readable 2 m.2

variable {d : StepDefinition} (h : d.Tidy)
include h

/-- A tidy definition is read back from the sorted form of what is written of it. -/
theorem Tidy.read_canonical : read d.write.canonical = .ok d :=
  h.toOrdered.read_canonical

theorem Tidy.readable_write : Json.Readable 3 d.write := by
  apply Json.Readable.obj
  intro m hm
  obtain rfl | hm := List.mem_cons.1 hm
  · exact .str _
  obtain rfl | hm := List.mem_cons.1 hm
  · exact .str _
  · exact h.readable m hm

end StepDefinition

theorem Action.tidy (a : Action) (tag name : String) :
    (StepDefinition.mk tag name a.attributes).Tidy := by
  obtain ⟨ms, hms, hm⟩ := a.members_write
  have hattributes : a.attributes = .ofList (Json.canonicalMembers ms) := by
    rw [attributes, hms, Json.canonical]
    rfl
  have hmem (n : String × Json) (h : n ∈ a.attributes) : ∃ m ∈ ms, n = (m.1, m.2.canonical) :=
    Json.mem_ofList_canonicalMembers (hattributes ▸ h)
  refine ⟨⟨?_, fun n hn => ?_, fun n hn => ?_⟩, fun n hn => ?_⟩
  · rw [hattributes]
    exact Members.sorted_ofList _
  · obtain ⟨m, hmem, rfl⟩ := hmem n hn
    exact (hm m hmem).1
  · obtain ⟨m, -, rfl⟩ := hmem n hn
    exact m.2.canonical_canonical
  · obtain ⟨m, hmem, rfl⟩ := hmem n hn
    exact (hm m hmem).2.canonical

/-! ## Steps -/

theorem StepType.tag_ne_empty (t : StepType) : t.tag ≠ "" := by
  cases t <;> decide

theorem StepType.ofTag?_eq_some_iff {tag : String} {t : StepType} :
    ofTag? tag = some t ↔ t.tag = tag := by
  constructor
  · intro h
    simpa using List.find?_some h
  · rintro rfl
    exact ofTag?_tag t

theorem StepType.ofTag?_eq_none_iff {tag : String} :
    ofTag? tag = none ↔ ∀ t : StepType, t.tag ≠ tag := by
  simp [ofTag?, mem_all]

theorem StepDefinition.type_eq_ok_iff {d : StepDefinition} {t : StepType} :
    d.type = .ok t ↔ t.tag = d.tag := by
  rw [← StepType.ofTag?_eq_some_iff, type]
  cases StepType.ofTag? d.tag <;> simp

theorem StepType.tag_injective : Function.Injective tag := by
  intro t u h
  have hof := ofTag?_tag t
  rw [h, ofTag?_tag] at hof
  exact (Option.some.inj hof).symm

theorem Registry.expect_full (t : StepType) : full.expect t = .ok () := by
  cases t <;> rfl

/-! ## The kinds of the six actions -/

namespace Kinds

theorem attributes_builtin (t : StepType) (a : Action) :
    (builtin t).attributes a = .ok a.attributes := by
  have hwrite : ((builtin t).write a).canonical = .obj a.attributes := a.canonical_write
  simp only [Kind.attributes, hwrite]

/-- Attributes are refused for their shape or for the first requirement that they do not meet, or
answered in normal form. -/
theorem settle_builtin (t : StepType) (name : String) (ms : Members) :
    (builtin t).settle name ms =
      match Action.read t (.obj ms) with
      | .error e => .error (.definition (.attributes name e))
      | .ok raw =>
        match raw.normalize.unmet? with
        | some property => .error (.required property)
        | none => .ok raw.normalize.attributes := by
  have hread : (builtin t).read (.obj ms) = Action.read t (.obj ms) := rfl
  rw [Kind.settle, hread]
  cases Action.read t (.obj ms) with
  | error e => rfl
  | ok raw =>
    have hcheck : (builtin t).check raw.normalize =
        match raw.normalize.unmet? with
        | some property => .error (.required property)
        | none => .ok () := rfl
    show ((builtin t).check raw.normalize >>= fun _ => (builtin t).attributes raw.normalize) =
      match raw.normalize.unmet? with
      | some property => .error (.required property)
      | none => .ok raw.normalize.attributes
    rw [hcheck, attributes_builtin]
    cases raw.normalize.unmet? <;> rfl

end Kinds

/-- What is stored are the attributes of a settled action of the type. -/
structure CheckedStep.Stores (v : CheckedStep) (a : Action) : Prop where
  settled : a.Settled
  type : a.type = v.type
  attributes : v.attributes = a.attributes

namespace CheckedStep

variable {v : CheckedStep} {a : Action}

theorem tidy_definition (h : v.Stores a) : v.definition.Tidy := by
  rw [definition, h.attributes]
  exact a.tidy _ _

namespace Stores

variable (h : v.Stores a)
include h

/-- The action is read back from the stored attributes. -/
theorem read : Action.read v.type (.obj v.attributes) = .ok a := by
  rw [h.attributes, ← h.type, ← a.canonical_write]
  exact a.read_canonical

theorem settle (name : String) :
    (Kinds.builtin v.type).settle name v.attributes = .ok v.attributes := by
  rw [Kinds.settle_builtin, h.read]
  simp only [h.settled.normal, h.settled.met, h.attributes]

end Stores

/-- Attributes that are answered are those of an action in normal form. -/
theorem stores_of_settle {name : String} {ms : Members}
    (h : (Kinds.builtin v.type).settle name ms = .ok v.attributes) :
    ∃ raw, Action.read v.type (.obj ms) = .ok raw ∧ v.Stores raw.normalize := by
  rw [Kinds.settle_builtin] at h
  split at h
  · cases h
  · next raw hraw =>
    split at h
    · cases h
    · next hmet =>
      have htype : raw.normalize.type = v.type := by
        rw [raw.type_normalize, Action.type_of_read hraw]
      exact ⟨raw, hraw, ⟨raw.normalize_normalize, hmet⟩, htype, (Except.ok.inj h).symm⟩

/-- The kinds of the six actions settle what stores an action, and nothing else. -/
theorem settled_iff : v.Settled .builtin ↔ ∃ a, v.Stores a := by
  constructor
  · rintro ⟨ms, hms⟩
    obtain ⟨raw, -, hraw⟩ := stores_of_settle hms
    exact ⟨raw.normalize, hraw⟩
  · rintro ⟨a, h⟩
    exact ⟨v.attributes, h.settle v.name⟩

end CheckedStep

/-! ## Steps -/

namespace Step

/-- A step is determined by what is stored of it. -/
theorem checked_injective {K : Kinds} : Function.Injective (checked (K := K)) := by
  rintro ⟨v, c, hc⟩ ⟨_, d, hd⟩ rfl
  obtain rfl := Except.ok.inj (hc.symm.trans hd)
  rfl

variable (s : Step)

theorem read_attributes : Action.read s.type (.obj s.definition.attributes) = .ok s.action :=
  s.reads

variable {s}

theorem action_eq {a : Action} (h : s.checked.Stores a) : s.action = a :=
  Except.ok.inj (s.read_attributes.symm.trans h.read)

/-- What a settled step stores is its action. -/
theorem stores_action (h : s.checked.Settled .builtin) : s.checked.Stores s.action := by
  obtain ⟨a, ha⟩ := CheckedStep.settled_iff.1 h
  rwa [action_eq ha]

/-- The step of a name and an action. -/
def ofAction (name : String) (a : Action) (named : name ≠ "") : Step where
  checked := ⟨a.type, name, a.attributes, named⟩
  content := a
  reads := by
    rw [← a.canonical_write]
    exact a.read_canonical

theorem settled_ofAction {name : String} {a : Action} {named : name ≠ ""} (h : a.Settled) :
    (ofAction name a named).checked.Settled .builtin :=
  CheckedStep.settled_iff.2 ⟨a, h, rfl, rfl⟩

end Step

namespace Registry

section

variable {K : Kinds} {r : Registry K} {d : StepDefinition} {v : CheckedStep}

/-- What a definition has passed when the check answers it. -/
theorem check_eq_ok (h : r.check d = .ok v) :
    d.type = .ok v.type ∧ r.expect v.type = .ok () ∧
      (K v.type).settle d.name d.attributes = .ok v.attributes ∧ v.name = d.name := by
  unfold check at h
  split_ifs at h with hname htag
  obtain ⟨t, htype, h⟩ := Except.bind_eq_ok_iff.1 h
  obtain ⟨⟨⟩, hexpect, h⟩ := Except.bind_eq_ok_iff.1 h
  obtain ⟨ms, hms, h⟩ := Except.bind_eq_ok_iff.1 h
  cases h
  exact ⟨htype, hexpect, hms, rfl⟩

/-- A checked step that its kind answers to its own attributes is the answer to its definition. -/
theorem check_definition_of_settle (hknown : r.expect v.type = .ok ())
    (h : (K v.type).settle v.name v.attributes = .ok v.attributes) :
    r.check v.definition = .ok v := by
  unfold check CheckedStep.definition
  rw [dif_neg v.named, if_neg v.type.tag_ne_empty, StepDefinition.type, StepType.ofTag?_tag]
  simp only [bind, Except.bind, hknown, h]

theorem build_eq_ok {content : (K v.type).Content} (hknown : r.expect v.type = .ok ())
    (h : (K v.type).read (.obj v.attributes) = .ok content) : r.build v = .ok ⟨v, content, h⟩ := by
  unfold build
  simp only [bind, Except.bind, hknown]
  split
  · next e he => rw [h] at he; cases he
  · next c hc =>
    obtain rfl := Except.ok.inj (h.symm.trans hc)
    rfl

end

variable {r : Registry} {d : StepDefinition} {v : CheckedStep} {a : Action}

/-- What a definition that passes the check is read as; the answer stores its normal form. -/
theorem check_cases (h : r.check d = .ok v) :
    d.type = .ok v.type ∧ r.expect v.type = .ok () ∧ v.name = d.name ∧
      ∃ raw, Action.read v.type (.obj d.attributes) = .ok raw ∧ v.Stores raw.normalize := by
  obtain ⟨htype, hknown, hsettle, hname⟩ := check_eq_ok h
  exact ⟨htype, hknown, hname, CheckedStep.stores_of_settle hsettle⟩

theorem check_definition (hknown : r.expect v.type = .ok ()) (h : v.Stores a) :
    r.check v.definition = .ok v :=
  check_definition_of_settle hknown (h.settle v.name)

/-- A step is built of what stores an action, and does that action. -/
theorem build_stores (hknown : r.expect v.type = .ok ()) (h : v.Stores a) :
    ∃ s, r.build v = .ok s ∧ s.checked = v ∧ s.action = a :=
  ⟨⟨v, a, h.read⟩, build_eq_ok hknown h.read, rfl, rfl⟩

/-- A step is made of every definition that passes the check, and of no other; what the check
answers is what is stored of it. -/
theorem map_checked_create (r : Registry) (d : StepDefinition) :
    (r.create d).map Step.checked = r.check d := by
  unfold create
  cases h : r.check d with
  | error fault => rfl
  | ok v =>
    obtain ⟨-, hknown, -, raw, -, hstores⟩ := check_cases h
    obtain ⟨s, hs, hchecked, -⟩ := build_stores hknown hstores
    simp only [bind, Except.bind, hs, Except.map, hchecked]

theorem create_eq_ok_iff {s : Step} : r.create d = .ok s ↔ r.check d = .ok s.checked := by
  rw [← map_checked_create, Except.map_eq_ok_iff]
  constructor
  · intro h
    exact ⟨s, h, rfl⟩
  · rintro ⟨t, h, hchecked⟩
    rwa [← Step.checked_injective hchecked]

theorem create_eq_error_iff {fault : Fault} :
    r.create d = .error fault ↔ r.check d = .error fault := by
  rw [← map_checked_create, Except.map_eq_error_iff]

end Registry

namespace Step

variable {s : Step} (h : s.checked.Settled .builtin)
include h

theorem tidy_definition : s.definition.Tidy :=
  CheckedStep.tidy_definition (stores_action h)

theorem check_definition : Registry.full.check s.definition = .ok s.checked :=
  Registry.check_definition (Registry.expect_full s.type) (stores_action h)

theorem create_definition : Registry.full.create s.definition = .ok s :=
  Registry.create_eq_ok_iff.2 (check_definition h)

end Step

end SiteScript
