import Mathlib.Data.List.Basic
import SiteScript.Proofs.Site.Reload
import SiteScript.Site.Editing

/-!
# Editing sessions

A session starts from a new definition or from that of a site, and adds, replaces and removes steps
in any order.  The definition is changed in place, but each change checks before it stores, so one
that fails leaves it as it was (`effect_perform`).  Every step that is stored is its own normal form
(`StepDefinition.Fixed`): the check of what the check has answered answers it again.  So nothing but
the header can keep the definition from being built, however long the session lasts (`session`).
-/

namespace SiteScript

/-- A definition that its check accepts and leaves as it is. -/
def StepDefinition.Fixed (d : StepDefinition) : Prop :=
  ∃ v, Registry.full.check d = .ok v ∧ v.definition = d

/-- What the check answers is its own answer. -/
theorem Registry.fixed_of_check {d : StepDefinition} {v : CheckedStep} (h : full.check d = .ok v) :
    v.definition.Fixed := by
  obtain ⟨-, hknown, -, raw, -, hstores⟩ := check_cases h
  exact ⟨v, check_definition hknown hstores, rfl⟩

namespace SiteDefinition

open InPlace

/-! ## Operations -/

/-- What an operation can do to a definition, and what it then answers.  It changes the one step that
it adds, replaces or removes, or nothing. -/
inductive Effect (d : SiteDefinition) :
    Edit → Except Fault (Option StepDefinition) → SiteDefinition → Prop where
  | add {step : StepDefinition} (v : CheckedStep) (checked : Registry.full.check step = .ok v)
    (fresh : d.hasStep step.name = false) :
    Effect d (.add step) (.ok none) { d with steps := d.steps ++ [v.definition] }
  | addRefused {step : StepDefinition} {fault : Fault} (h : d.checkStep step true = .error fault) :
    Effect d (.add step) (.error fault) d
  | update {index : Nat} {step : StepDefinition} (within : index < d.steps.length) (v : CheckedStep)
    (checked : Registry.full.check step = .ok v) :
    Effect d (.update index step) (.ok none) { d with steps := d.steps.set index v.definition }
  | updateRefused {index : Nat} {step : StepDefinition} {fault : Fault}
    (within : index < d.steps.length) (h : d.checkStep step false = .error fault) :
    Effect d (.update index step) (.error fault) d
  | updateBeyond {index : Nat} {step : StepDefinition} (beyond : d.steps.length ≤ index) :
    Effect d (.update index step) (.error (.definition (.noStep index))) d
  | remove {index : Nat} (within : index < d.steps.length) :
    Effect d (.remove index) (.ok (some d.steps[index]))
      { d with steps := d.steps.eraseIdx index }
  | removeBeyond {index : Nat} (beyond : d.steps.length ≤ index) :
    Effect d (.remove index) (.ok none) d

theorem checkStep_eq_ok {d : SiteDefinition} {step : StepDefinition} {isNew : Bool}
    {v : CheckedStep} (h : d.checkStep step isNew = .ok v) :
    Registry.full.check step = .ok v ∧ (isNew && d.hasStep step.name) = false := by
  unfold checkStep at h
  split_ifs at h with hname htag hused
  exact ⟨h, by simpa using hused⟩

/-! Each change checks before it stores, so that it is done as a whole or not at all. -/

theorem run_storeStep (d : SiteDefinition) (step : StepDefinition) :
    (storeStep step).run d =
      match d.checkStep step true with
      | .ok v => (.ok (), { d with steps := d.steps ++ [v.definition] })
      | .error fault => (.error fault, d) := by
  simp only [storeStep, run_bind, run_get, run_ofExcept]
  cases d.checkStep step true <;> rfl

theorem run_storeStepAt (d : SiteDefinition) {index : Nat} (h : index < d.steps.length)
    (step : StepDefinition) :
    (storeStepAt index step).run d =
      match d.checkStep step false with
      | .ok v => (.ok (), { d with steps := d.steps.set index v.definition })
      | .error fault => (.error fault, d) := by
  simp only [storeStepAt, run_bind, run_get, if_neg (Nat.not_le_of_lt h), run_ofExcept]
  cases d.checkStep step false <;> rfl

theorem run_storeStepAt_of_le (d : SiteDefinition) {index : Nat} (h : d.steps.length ≤ index)
    (step : StepDefinition) :
    (storeStepAt index step).run d = (.error (.definition (.noStep index)), d) := by
  simp only [storeStepAt, run_bind, run_get, if_pos h, run_throw]

theorem run_takeStep (d : SiteDefinition) (index : Nat) :
    (takeStep index).run d =
      match d.steps[index]? with
      | some step => (.ok (some step), { d with steps := d.steps.eraseIdx index })
      | none => (.ok none, d) := by
  simp only [takeStep, run_bind, run_get]
  cases d.steps[index]? <;> rfl

theorem addStep_eq (d : SiteDefinition) (step : StepDefinition) :
    d.addStep step =
      (d.checkStep step true).map fun v => { d with steps := d.steps ++ [v.definition] } := by
  rw [addStep, after, run_storeStep]
  cases d.checkStep step true <;> rfl

theorem updateStep_eq (d : SiteDefinition) {index : Nat} (h : index < d.steps.length)
    (step : StepDefinition) :
    d.updateStep index step =
      (d.checkStep step false).map fun v => { d with steps := d.steps.set index v.definition } := by
  rw [updateStep, after, run_storeStepAt d h]
  cases d.checkStep step false <;> rfl

theorem updateStep_of_le (d : SiteDefinition) {index : Nat} (h : d.steps.length ≤ index)
    (step : StepDefinition) : d.updateStep index step = .error (.definition (.noStep index)) := by
  rw [updateStep, after, run_storeStepAt_of_le d h]

/-- Every operation has one of these effects. -/
theorem effect_perform (d : SiteDefinition) (e : Edit) :
    Effect d e (d.perform e).1 (d.perform e).2 := by
  cases e with
  | add step =>
    simp only [perform, Edit.change, run_bind, run_storeStep]
    rcases hcheck : d.checkStep step true with fault | v
    · exact .addRefused hcheck
    · obtain ⟨hv, hfresh⟩ := checkStep_eq_ok hcheck
      exact .add v hv hfresh
  | update index step =>
    rcases Nat.lt_or_ge index d.steps.length with hindex | hindex
    · simp only [perform, Edit.change, run_bind, run_storeStepAt d hindex]
      rcases hcheck : d.checkStep step false with fault | v
      · exact .updateRefused hindex hcheck
      · exact .update hindex v (checkStep_eq_ok hcheck).1
    · simp only [perform, Edit.change, run_bind, run_storeStepAt_of_le d hindex]
      exact .updateBeyond hindex
  | remove index =>
    simp only [perform, Edit.change, run_takeStep]
    rcases Nat.lt_or_ge index d.steps.length with hindex | hindex
    · rw [List.getElem?_eq_getElem hindex]
      exact .remove hindex
    · rw [List.getElem?_eq_none hindex]
      exact .removeBeyond hindex

/-! ## The invariant -/

/-- What holds at every point of a session: the header is that of the start, and every step is its
own normal form. -/
structure Kept (start d : SiteDefinition) : Prop where
  name : d.name = start.name
  url : d.url = start.url
  credentials : d.credentials = start.credentials
  fixed : ∀ t ∈ d.steps, t.Fixed

variable {start d next : SiteDefinition} {e : Edit}
  {answer : Except Fault (Option StepDefinition)}

theorem Effect.kept (h : Effect d e answer next) (hd : Kept start d) : Kept start next := by
  obtain ⟨hname, hurl, hcredentials, hfixed⟩ := hd
  cases h with
  | add v checked =>
    refine ⟨hname, hurl, hcredentials, ?_⟩
    intro t ht
    obtain ht | ht := List.mem_append.1 ht
    · exact hfixed t ht
    · rw [List.mem_singleton.1 ht]
      exact Registry.fixed_of_check checked
  | update within v checked =>
    refine ⟨hname, hurl, hcredentials, ?_⟩
    intro t ht
    obtain ht | rfl := List.mem_or_eq_of_mem_set ht
    · exact hfixed t ht
    · exact Registry.fixed_of_check checked
  | remove within =>
    exact ⟨hname, hurl, hcredentials, fun t ht => hfixed t (List.mem_of_mem_eraseIdx ht)⟩
  | addRefused | updateRefused | updateBeyond | removeBeyond =>
    exact ⟨hname, hurl, hcredentials, hfixed⟩

theorem Kept.run (h : Kept start d) (edits : List Edit) : Kept start (d.run edits) := by
  induction edits generalizing d with
  | nil => exact h
  | cons e edits ih => exact ih ((effect_perform d e).kept h)

/-! ## Building what was edited -/

theorem exists_steps_of_fixed {ts : List StepDefinition} (h : ∀ t ∈ ts, t.Fixed) :
    ∃ steps, ts.mapM Registry.full.create = .ok steps ∧ steps.map Step.definition = ts := by
  induction ts with
  | nil => exact ⟨[], rfl, rfl⟩
  | cons t ts ih =>
    obtain ⟨⟨v, hv, hdefinition⟩, hts⟩ := List.forall_mem_cons.1 h
    obtain ⟨steps, hsteps, hmap⟩ := ih hts
    rw [← Registry.map_checked_create, Except.map_eq_ok_iff] at hv
    obtain ⟨s, hs, rfl⟩ := hv
    refine ⟨s :: steps, ?_, ?_⟩
    · rw [List.mapM_cons, hs, hsteps]
      rfl
    · rw [List.map_cons, hmap]
      exact congrArg (· :: ts) hdefinition

/-- With steps in normal form a definition is built if and only if its header is sound, and the site
has just these steps. -/
theorem build_of_fixed (h : ∀ t ∈ d.steps, t.Fixed) :
    ((∃ site, Site.build d = .ok site) ↔ d.HeaderSound) ∧
      ∀ site, Site.build d = .ok site → site.definition.steps = d.steps := by
  obtain ⟨steps, hsteps, hmap⟩ := exists_steps_of_fixed h
  rw [← headerFault?_eq_none_iff]
  refine ⟨⟨fun ⟨site, hsite⟩ => (Site.buildWith_eq_ok_iff.1 hsite).1, fun hheader => ?_⟩, ?_⟩
  · obtain ⟨site, hsite, -⟩ := Site.exists_buildWith_of_mapM_ok hheader hsteps
    exact ⟨site, hsite⟩
  · intro site hsite
    have hmade := (Site.buildWith_eq_ok_iff.1 hsite).2.1
    rw [hsteps] at hmade
    rw [Site.definition, ← Except.ok.inj hmade, hmap]

/-! ## Sessions -/

/-- Where a session starts. -/
inductive Opening where
  | new (name url : String) (credentials : Option Credentials)
  | saved (site : Site)

/-- The definition that a session starts from. -/
def Opening.definition : Opening → SiteDefinition
  | .new name url credentials => ⟨name, url, credentials, []⟩
  | .saved site => site.definition

theorem Opening.kept (start : Opening) : Kept start.definition start.definition := by
  refine ⟨rfl, rfl, rfl, ?_⟩
  cases start with
  | new name url credentials => exact List.forall_mem_nil _
  | saved site =>
    intro t ht
    obtain ⟨s, hs, rfl⟩ := List.mem_map.1 (show t ∈ site.steps.map Step.definition from ht)
    exact Registry.fixed_of_check (Step.check_definition (site.settled s hs))

/-- At every point of a session the header is that of the start and each step is its own normal
form, the next operation has one of the effects of `Effect`, and the definition is built if and only
if its header is sound, into a site with the edited steps. -/
theorem session (start : Opening) (edits : List Edit) :
    Kept start.definition (start.definition.run edits) ∧
      (∀ e, Effect (start.definition.run edits) e ((start.definition.run edits).perform e).1
        ((start.definition.run edits).perform e).2) ∧
      ((∃ site, Site.build (start.definition.run edits) = .ok site) ↔
        start.definition.HeaderSound) ∧
      ∀ site, Site.build (start.definition.run edits) = .ok site →
        site.definition.steps = (start.definition.run edits).steps := by
  have hkept := start.kept.run edits
  obtain ⟨hbuild, hsteps⟩ := build_of_fixed hkept.fixed
  have hheader : (start.definition.run edits).HeaderSound ↔ start.definition.HeaderSound := by
    rw [← headerFault?_eq_none_iff, ← headerFault?_eq_none_iff, hkept.name, hkept.url,
      hkept.credentials]
  exact ⟨hkept, effect_perform _, hbuild.trans hheader, hsteps⟩

end SiteDefinition

end SiteScript
