import Mathlib.Data.List.Nodup
import Mathlib.Data.List.Perm.Basic
import SiteScript.Proofs.Site.Bulk

/-!
# Names of steps

A step that is added must not take the name of another one, and this is refused before anything else
about the step is looked at (`addStep_eq_duplicateName_iff`).  So adding and removing keep the names
apart, in whatever order (`Distinct.run`).  Replacing a step does not ask for its name: it keeps the
names apart if and only if no other step has it (`distinct_update_iff`).
-/

namespace SiteScript

/-- The check of a step on its own knows of no other names. -/
theorem Registry.check_ne_duplicateName (r : Registry) (d : StepDefinition) (name : String) :
    r.check d ≠ .error (.duplicateName name) := by
  unfold check
  split_ifs with hname htag
  · rintro ⟨⟩
  · rintro ⟨⟩
  · unfold StepDefinition.type expect
    cases StepType.ofTag? d.tag with
    | none => rintro ⟨⟩
    | some t =>
      simp only [bind, Except.bind]
      split_ifs
      · rw [Kinds.settle_builtin]
        cases Action.read t (.obj d.attributes) with
        | error e => rintro ⟨⟩
        | ok raw => cases hunmet : raw.normalize.unmet? <;> simp [hunmet]
      · rintro ⟨⟩

namespace SiteDefinition

/-! ## The check of a new name -/

theorem hasStep_iff {d : SiteDefinition} {name : String} :
    d.hasStep name = true ↔ ∃ t ∈ d.steps, t.name = name := by
  simp [hasStep]

theorem addStep_eq_duplicateName_iff {d : SiteDefinition} {step : StepDefinition} {name : String} :
    d.addStep step = .error (.duplicateName name) ↔
      name = step.name ∧ step.name ≠ "" ∧ step.tag ≠ "" ∧ ∃ t ∈ d.steps, t.name = step.name := by
  rw [← hasStep_iff, addStep_eq, Except.map_eq_error_iff]
  unfold checkStep
  split_ifs with hname htag hused
  · simp [hname]
  · simp [htag]
  · have hstep : d.hasStep step.name = true := by simpa using hused
    simp [hname, htag, hstep, eq_comm]
  · have hstep : d.hasStep step.name = false := by simpa using hused
    simp [hstep, Registry.check_ne_duplicateName]

/-! ## Names under edits -/

/-- No two steps have the same name. -/
def Distinct (d : SiteDefinition) : Prop :=
  (d.steps.map StepDefinition.name).Nodup

/-- Whether an operation puts a step in the place of another one. -/
def Edit.replaces : Edit → Bool
  | .update _ _ => true
  | .add _ | .remove _ => false

variable {d next : SiteDefinition} {e : Edit} {answer : Except Fault (Option StepDefinition)}

/-- Adding and removing keep the names apart, whether they succeed or not. -/
theorem Effect.distinct (h : Effect d e answer next) (he : e.replaces = false)
    (hd : d.Distinct) : next.Distinct := by
  cases h with
  | @add step v checked fresh =>
    have hname : v.definition.name = step.name := (Registry.check_cases checked).2.2.1
    have hnew : step.name ∉ d.steps.map StepDefinition.name := by
      intro hmem
      obtain ⟨t, ht, hname⟩ := List.mem_map.1 hmem
      rw [hasStep_iff.2 ⟨t, ht, hname⟩] at fresh
      cases fresh
    rw [Distinct, List.map_append, List.map_singleton, hname, ← List.concat_eq_append]
    exact hd.concat hnew
  | remove within => exact hd.sublist ((List.eraseIdx_sublist _ _).map _)
  | addRefused | removeBeyond => exact hd
  | update | updateRefused | updateBeyond => cases he

theorem Distinct.run (h : d.Distinct) {edits : List Edit}
    (hedits : ∀ e ∈ edits, e.replaces = false) : (d.run edits).Distinct := by
  induction edits generalizing d with
  | nil => exact h
  | cons e edits ih =>
    obtain ⟨he, hrest⟩ := List.forall_mem_cons.1 hedits
    exact ih ((effect_perform d e).distinct he h) hrest

theorem nodup_set_iff {α : Type} {xs : List α} (h : xs.Nodup) {index : Nat}
    (hindex : index < xs.length) (x : α) :
    (xs.set index x).Nodup ↔ ∀ j, j ≠ index → xs[j]? ≠ some x := by
  have hperm : (xs.set index x).Perm (x :: xs.eraseIdx index) :=
    List.set_perm_cons_eraseIdx hindex x
  have hrest : (xs.eraseIdx index).Nodup := h.sublist (List.eraseIdx_sublist _ _)
  rw [hperm.nodup_iff, List.nodup_cons, and_iff_left hrest, List.mem_eraseIdx_iff_getElem?]
  simp only [not_exists, not_and]

/-- A step that replaces another one has a name of its own if and only if no other step has it. -/
theorem distinct_update_iff (h : d.Distinct) {index : Nat} {step : StepDefinition}
    (hupdate : d.updateStep index step = .ok next) :
    next.Distinct ↔ ∀ j t, j ≠ index → d.steps[j]? = some t → t.name ≠ step.name := by
  have hindex : index < d.steps.length := by
    by_contra hbeyond
    rw [updateStep_of_le d (Nat.le_of_not_lt hbeyond)] at hupdate
    cases hupdate
  rw [d.updateStep_eq hindex] at hupdate
  obtain ⟨v, hv, rfl⟩ := Except.map_eq_ok_iff.1 hupdate
  have hname : v.definition.name = step.name :=
    (Registry.check_cases (checkStep_eq_ok hv).1).2.2.1
  rw [Distinct, List.map_set, hname, nodup_set_iff h (by simpa using hindex)]
  simp only [List.getElem?_map, ne_eq, Option.map_eq_some_iff, not_exists, not_and]
  exact ⟨fun hj j t hne ht => hj j hne t ht, fun hj j hne t ht => hj j t hne ht⟩

/-- What edits do to the names of steps.  Names that are apart stay apart when a step is added or
removed, whether that succeeds or not, and when a step is replaced as long as no other step has its
name.  A step is refused for its name if and only if it has a name and a type and the name is in use,
whatever else is wrong with it.  From a definition without steps adding and removing never lead to
two steps of one name. -/
theorem distinct_names (d : SiteDefinition) :
    (d.Distinct → ∀ e : Edit, e.replaces = false → (d.perform e).2.Distinct) ∧
      (d.Distinct → ∀ index step next, d.updateStep index step = .ok next →
        (next.Distinct ↔
          ∀ j t, j ≠ index → d.steps[j]? = some t → t.name ≠ step.name)) ∧
      (∀ step name, d.addStep step = .error (.duplicateName name) ↔
        name = step.name ∧ step.name ≠ "" ∧ step.tag ≠ "" ∧ ∃ t ∈ d.steps, t.name = step.name) ∧
      (d.steps = [] → ∀ edits : List Edit, (∀ e ∈ edits, e.replaces = false) →
        (d.run edits).Distinct) := by
  refine ⟨fun hd e he => (effect_perform d e).distinct he hd,
    fun hd index step next hupdate => distinct_update_iff hd hupdate,
    fun step name => addStep_eq_duplicateName_iff, fun hnone edits hedits => ?_⟩
  have hd : d.Distinct := by simp [Distinct, hnone]
  exact hd.run hedits

end SiteDefinition

end SiteScript
