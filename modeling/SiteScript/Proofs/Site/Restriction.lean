import SiteScript.Proofs.Site.Reload
import SiteScript.Proofs.Site.Traversal

/-!
# Registries of some types

A registry is made by registering types one after the other (`Registry.ofTypes`).  It knows the types that
were registered, in whatever order and however often, and nothing else about it can be seen from outside.
On definitions of these types it answers as the registry of all types does, and it refuses all other
ones by their tag; so do the sites that are built with it (`Registry.restricts_ofTypes`).
-/

namespace SiteScript

namespace Registry

/-! ## Registering -/

/-- The registry after some types have been registered, one after the other. -/
def ofTypes (ts : List StepType) : Registry :=
  ts.foldl register empty

theorem contains_iff {r : Registry} {t : StepType} : r.contains t = true ↔ t ∈ r.types :=
  decide_eq_true_iff

/-- A registry that registers a type knows that type and those that it knew before. -/
theorem mem_types_register (r : Registry) (t u : StepType) :
    u ∈ (r.register t).types ↔ u = t ∨ u ∈ r.types := by
  unfold register
  split
  · next h =>
    constructor
    · exact .inr
    · rintro (rfl | hu)
      · exact h
      · exact hu
  · exact List.mem_cons

theorem mem_types_foldl_register (ts : List StepType) (r : Registry) (u : StepType) :
    u ∈ (ts.foldl register r).types ↔ u ∈ ts ∨ u ∈ r.types := by
  induction ts generalizing r with
  | nil => simp
  | cons t ts ih =>
    rw [List.foldl_cons, ih, mem_types_register, List.mem_cons, or_left_comm, or_assoc]

theorem mem_types_ofTypes {ts : List StepType} {u : StepType} : u ∈ (ofTypes ts).types ↔ u ∈ ts := by
  simp [ofTypes, mem_types_foldl_register, empty]

/-! ## Listing -/

theorem nodup_all : StepType.all.Nodup := by
  decide

theorem mem_stepTypes {r : Registry} {t : StepType} : t ∈ r.stepTypes ↔ t ∈ r.types := by
  rw [stepTypes, List.mem_filter, contains_iff]
  exact and_iff_right t.mem_all

theorem nodup_stepTypes (r : Registry) : r.stepTypes.Nodup :=
  nodup_all.filter _

/-- The types are counted as they are listed, each once. -/
theorem size_eq (r : Registry) : r.size = r.stepTypes.length := by
  have hperm : r.types.Perm r.stepTypes :=
    (List.perm_ext_iff_of_nodup r.nodup r.nodup_stepTypes).2 fun _ => mem_stepTypes.symm
  exact hperm.length_eq

theorem stepTypes_ofTypes (ts : List StepType) :
    (ofTypes ts).stepTypes = StepType.all.filter (· ∈ ts) := by
  refine List.filter_congr fun t _ => ?_
  rw [Bool.eq_iff_iff, contains_iff, mem_types_ofTypes, decide_eq_true_iff]

/-! ## Checking -/

theorem expect_of_mem {r : Registry} {t : StepType} (h : t ∈ r.types) : r.expect t = .ok () := by
  rw [expect, if_pos (contains_iff.2 h)]

theorem expect_of_not_mem {r : Registry} {t : StepType} (h : t ∉ r.types) :
    r.expect t = .error (.unknownType t.tag) := by
  rw [expect, if_neg fun hc => h (contains_iff.1 hc)]

theorem expect_eq_ok_iff {r : Registry} {t : StepType} : r.expect t = .ok () ↔ t ∈ r.types := by
  by_cases h : t ∈ r.types
  · simp [expect_of_mem h, h]
  · simp [expect_of_not_mem h, h]

variable {r : Registry} {d : StepDefinition}

/-- A definition of a known type has the answer of the registry of all types. -/
theorem check_eq_full {t : StepType} (h : t ∈ r.types) (ht : d.tag = t.tag) :
    r.check d = full.check d := by
  have htype : d.type = .ok t := StepDefinition.type_eq_ok_iff.2 ht.symm
  simp only [check, htype, bind, Except.bind, expect_of_mem h, expect_full]

/-- A definition of any other type is refused before its attributes are looked at. -/
theorem check_of_unknown (hname : d.name ≠ "") (htag : d.tag ≠ "")
    (h : ∀ t ∈ r.types, d.tag ≠ t.tag) : r.check d = .error (.unknownType d.tag) := by
  unfold check
  rw [dif_neg hname, if_neg htag, StepDefinition.type]
  cases htype : StepType.ofTag? d.tag with
  | none => rfl
  | some t =>
    have ht : t.tag = d.tag := StepType.ofTag?_eq_some_iff.1 htype
    have hexpect := expect_of_not_mem fun hmem => h t hmem ht.symm
    simp only [bind, Except.bind, hexpect, ht]

/-! ## Building -/

theorem build_of_unknown {v : CheckedStep} (h : v.type ∉ r.types) :
    r.build v = .error (.unknownType v.type.tag) := by
  rw [build, expect_of_not_mem h]
  rfl

theorem build_of_read_error {v : CheckedStep} (h : v.type ∈ r.types) {e : ShapeFault}
    (hread : Action.read v.type (.obj v.attributes) = .error e) :
    r.build v = .error (.jsonShape e) := by
  have hkind : (Kinds.builtin v.type).read (.obj v.attributes) = .error e := hread
  simp only [build, expect_of_mem h, bind, Except.bind]
  split
  · next f hf => rw [Except.error.inj (hf.symm.trans hkind)]
  · next c hc => exact absurd (hc.symm.trans hkind) (by simp)

/-- The step that is built of a known type is the one whose stored attributes are read. -/
theorem build_eq_ok_iff {v : CheckedStep} (h : v.type ∈ r.types) {s : Step} :
    r.build v = .ok s ↔ s.checked = v := by
  constructor
  · exact checked_of_build
  · rintro rfl
    exact build_eq_ok (expect_of_mem h) s.reads

theorem build_eq_error_iff {v : CheckedStep} (h : v.type ∈ r.types) {fault : Fault} :
    r.build v = .error fault ↔
      ∃ e, Action.read v.type (.obj v.attributes) = .error e ∧ fault = .jsonShape e := by
  cases hread : Action.read v.type (.obj v.attributes) with
  | error e => simp [build_of_read_error h hread, eq_comm]
  | ok a => simp [build_eq_ok (expect_of_mem h) hread]

/-- A step is made of a definition if the registry of all types makes it and its type is known. -/
theorem create_eq_ok_iff_full {s : Step} :
    r.create d = .ok s ↔ full.create d = .ok s ∧ s.type ∈ r.types := by
  rw [create_eq_ok_iff, create_eq_ok_iff]
  constructor
  · intro h
    obtain ⟨htype, hexpect, -⟩ := check_cases h
    have hknown := expect_eq_ok_iff.1 hexpect
    have htag := StepDefinition.type_eq_ok_iff.1 htype
    exact ⟨check_eq_full hknown htag.symm ▸ h, hknown⟩
  · rintro ⟨h, hknown⟩
    have htag := StepDefinition.type_eq_ok_iff.1 (check_cases h).1
    rw [check_eq_full hknown htag.symm, h]

end Registry

namespace Site

/-- Lists of steps are made by a registry if the registry of all types makes them and it knows all their
types. -/
theorem mapM_create_eq_ok_iff {r : Registry} {ds : List StepDefinition} {steps : List Step} :
    ds.mapM r.create = .ok steps ↔
      ds.mapM Registry.full.create = .ok steps ∧ ∀ s ∈ steps, s.type ∈ r.types := by
  rw [mapM_eq_ok_iff, mapM_eq_ok_iff]
  constructor
  · intro h
    induction h with
    | nil => exact ⟨.nil, List.forall_mem_nil _⟩
    | cons hs _ ih =>
      obtain ⟨hmade, hknown⟩ := Registry.create_eq_ok_iff_full.1 hs
      exact ⟨.cons hmade ih.1, List.forall_mem_cons.2 ⟨hknown, ih.2⟩⟩
  · rintro ⟨h, hknown⟩
    induction h with
    | nil => exact .nil
    | cons hs _ ih =>
      obtain ⟨htype, hrest⟩ := List.forall_mem_cons.1 hknown
      exact .cons (Registry.create_eq_ok_iff_full.2 ⟨hs, htype⟩) (ih hrest)

/-- A site is built with a registry if it is built with all types and the registry knows all types of its
steps. -/
theorem buildWith_eq_ok_iff_build {r : Registry} {d : SiteDefinition} {s : Site} :
    buildWith r d = .ok s ↔ build d = .ok s ∧ ∀ t ∈ s.steps, t.type ∈ r.types := by
  rw [build, buildWith_eq_ok_iff, buildWith_eq_ok_iff, mapM_create_eq_ok_iff]
  tauto

end Site

/-! ## Restrictions -/

/-- A registry that is the one of all types, restricted to some types. -/
structure Registry.Restricts (r : Registry) (ts : List StepType) : Prop where
  /-- On a definition of one of the types both registries answer the same. -/
  known : ∀ (d : StepDefinition) (t : StepType), t ∈ ts → d.tag = t.tag →
    r.check d = full.check d ∧ r.create d = full.create d
  /-- Any other definition is refused by its tag, whatever its attributes are. -/
  unknown : ∀ d : StepDefinition, d.name ≠ "" → d.tag ≠ "" → (∀ t ∈ ts, d.tag ≠ t.tag) →
    r.check d = .error (.unknownType d.tag) ∧ r.create d = .error (.unknownType d.tag)
  /-- A step that any registry has checked is built if and only if its type is one of the types.  That
  registry may have kinds of its own for other types, but not for the type of the step. -/
  build : ∀ (K : Kinds) (q : Registry K) (d : StepDefinition) (v : CheckedStep),
    q.check d = .ok v → K v.type = Kinds.builtin v.type →
      ((∃ s, r.build v = .ok s) ↔ v.type ∈ ts)
  /-- Whatever has been checked, any other type is refused by its tag. -/
  refused : ∀ v : CheckedStep, v.type ∉ ts → r.build v = .error (.unknownType v.type.tag)
  /-- Whatever has been checked, a step of one of the types is what is read from its attributes; they
  cannot be read if some other kind has stored them in a form of its own. -/
  reads : ∀ v : CheckedStep, v.type ∈ ts → (∀ s, r.build v = .ok s ↔ s.checked = v) ∧
    ∀ fault, r.build v = .error fault ↔
      ∃ e, Action.read v.type (.obj v.attributes) = .error e ∧ fault = .jsonShape e
  /-- The types are listed in the order of the list of all types, each once, and counted so. -/
  listed : r.stepTypes = StepType.all.filter (· ∈ ts)
  nodup : r.stepTypes.Nodup
  counted : r.size = r.stepTypes.length
  /-- In which order and how often the types were registered makes no difference. -/
  unordered : ∀ us : List StepType, (∀ t, t ∈ us ↔ t ∈ ts) →
    (ofTypes us).stepTypes = r.stepTypes ∧ (ofTypes us).size = r.size
  /-- A site is built if it is built with all types and its steps are of the types, and it is the same
  site. -/
  site : ∀ d : SiteDefinition, Site.headerFault? d.name d.url d.credentials = none → ∀ s : Site,
    Site.buildWith r d = .ok s ↔ Site.build d = .ok s ∧ ∀ t ∈ s.steps, t.type ∈ ts

/-- What a kind of the six has checked is built by every registry that knows the type. -/
theorem Registry.exists_build_iff {K : Kinds} {q : Registry K} {d : StepDefinition} {v : CheckedStep}
    (h : q.check d = .ok v) (hkind : K v.type = Kinds.builtin v.type) (r : Registry) :
    (∃ s, r.build v = .ok s) ↔ v.type ∈ r.types := by
  have hsettle := (check_eq_ok h).2.2.1
  rw [hkind] at hsettle
  obtain ⟨raw, -, hstores⟩ := CheckedStep.stores_of_settle hsettle
  constructor
  · rintro ⟨s, hs⟩
    by_contra hunknown
    rw [build_of_unknown hunknown] at hs
    cases hs
  · intro hknown
    obtain ⟨s, hs, -⟩ := build_stores (expect_of_mem hknown) hstores
    exact ⟨s, hs⟩

/-- A step that opens the details of a product. -/
def Step.opening : Step :=
  .ofAction "details" (.click ⟨"#details"⟩) (by decide)

/-- A site with that step alone. -/
def Site.counter : Site where
  name := "counter"
  url := "https://counter.example/"
  login := none
  steps := [Step.opening]
  named := by decide
  located := by decide
  settled := List.forall_mem_singleton.2 (Step.settled_ofAction ⟨rfl, rfl⟩)

end SiteScript
