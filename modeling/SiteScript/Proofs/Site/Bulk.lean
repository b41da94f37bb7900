import SiteScript.Proofs.Site.Session
import SiteScript.Proofs.Site.Traversal

/-!
# Adding steps and building at once

A definition is made by adding its steps one after the other, or its steps are all checked when the
site is built.  As long as no name is used twice both check a step in the same way
(`addStep_of_fresh`), so adding some steps amounts to checking them all (`addSteps_eq`): the outcome
is the same site, or the same fault of the same step (`addSteps_eq_build`).
-/

namespace SiteScript

/-! ## Checking a step -/

theorem Registry.name_of_create {r : Registry} {d : StepDefinition} {s : Step}
    (h : r.create d = .ok s) : s.definition.name = d.name :=
  (check_cases (create_eq_ok_iff.1 h)).2.2.1

namespace SiteDefinition

/-- Add steps one after the other, up to the first that is refused. -/
def addSteps (d : SiteDefinition) (steps : List StepDefinition) : Except Fault SiteDefinition :=
  steps.foldlM addStep d

variable {d : SiteDefinition} {steps : List StepDefinition}

/-- A step with a name of its own is checked as it is when a site is built. -/
theorem addStep_of_fresh {step : StepDefinition}
    (h : step.name ∉ d.steps.map StepDefinition.name) :
    d.addStep step = (Registry.full.create step).map fun s =>
      { d with steps := d.steps ++ [s.definition] } := by
  have hfresh : d.hasStep step.name = false := by
    unfold hasStep
    rw [List.any_eq_false]
    intro s hs
    have hne : s.name ≠ step.name := fun heq => h (heq ▸ List.mem_map_of_mem hs)
    simpa using hne
  have hcheck : d.checkStep step true = Registry.full.check step := by
    unfold checkStep
    rw [hfresh]
    unfold Registry.check
    by_cases hname : step.name = ""
    · simp [hname]
    · by_cases htag : step.tag = ""
      · simp [hname, htag]
      · simp [hname, htag]
  rw [addStep_eq, hcheck, ← Registry.map_checked_create]
  cases Registry.full.create step <;> rfl

/-- Steps with names of their own are added if and only if they are all checked. -/
theorem addSteps_eq (h : (d.steps ++ steps).map StepDefinition.name |>.Nodup) :
    d.addSteps steps = (steps.mapM Registry.full.create).map fun checked =>
      { d with steps := d.steps ++ checked.map Step.definition } := by
  induction steps generalizing d with
  | nil =>
    rw [addSteps, List.foldlM_nil, List.mapM_nil]
    simp [pure, Except.pure, Except.map]
  | cons step steps ih =>
    have hfresh : step.name ∉ d.steps.map StepDefinition.name := by
      intro hmem
      rw [List.map_append, List.nodup_append] at h
      exact h.2.2 _ hmem _ List.mem_cons_self rfl
    rw [addSteps, List.foldlM_cons, List.mapM_cons, addStep_of_fresh hfresh]
    cases hstep : Registry.full.create step with
    | error e => rfl
    | ok s =>
      have hname : s.definition.name = step.name := Registry.name_of_create hstep
      have htail := ih (d := { d with steps := d.steps ++ [s.definition] }) (by
        simpa [hname] using h)
      refine htail.trans ?_
      simp only [bind, Except.bind]
      cases steps.mapM Registry.full.create with
      | error e => rfl
      | ok checked => simp [Except.map, pure, Except.pure]

theorem map_name_definition {checked : List Step}
    (h : steps.mapM Registry.full.create = .ok checked) :
    (checked.map Step.definition).map StepDefinition.name = steps.map StepDefinition.name := by
  have hpairs := mapM_eq_ok_iff.1 h
  clear h
  induction hpairs with
  | nil => rfl
  | @cons step s _ _ hstep _ ih =>
    have hname : s.definition.name = step.name := Registry.name_of_create hstep
    rw [List.map_cons, List.map_cons, List.map_cons, ih, hname]

/-- Steps are added up to the first one that is not checked, and that one is refused. -/
theorem exists_addStep_eq_error (h : ((d.steps ++ steps).map StepDefinition.name).Nodup)
    {index : Nat} {fault : Fault} (hindex : index < steps.length)
    (hrefused : RefusedAt Registry.full.create steps index fault) :
    ∃ before, d.addSteps (steps.take index) = .ok before ∧
      before.addStep steps[index] = .error fault := by
  have hsplit : steps.take index ++ [steps[index]] <+: steps := by
    rw [List.take_append_getElem]
    exact List.take_prefix _ _
  have hnodup : ((d.steps ++ (steps.take index ++ [steps[index]])).map
      StepDefinition.name).Nodup :=
    h.sublist ((((List.prefix_append_right_inj d.steps).2 hsplit).sublist).map _)
  rw [← List.append_assoc, List.map_append, List.nodup_append] at hnodup
  obtain ⟨hbefore, -, hlast⟩ := hnodup
  obtain ⟨checked, hchecked⟩ := hrefused.exists_mapM_take
  have hadded := addSteps_eq hbefore
  rw [hchecked] at hadded
  refine ⟨_, hadded, ?_⟩
  have hfresh : steps[index].name ∉
      (d.steps ++ checked.map Step.definition).map StepDefinition.name := by
    rw [List.map_append, map_name_definition hchecked, ← List.map_append]
    intro hmem
    exact hlast _ hmem _ List.mem_cons_self rfl
  rw [addStep_of_fresh hfresh, hrefused.refused]
  rfl

/-! ## Building -/

/-- Steps with names of their own are added to a new definition, one after the other, if and only if
a site is built of all of them.  The definition that they are added to builds the same site;
otherwise both ways report the same fault of the same step, and all steps before it are taken. -/
theorem addSteps_eq_build {name url : String} (named : name ≠ "") (located : url ≠ "")
    {steps : List StepDefinition} (distinct : (steps.map StepDefinition.name).Nodup) :
    ((∃ d, addSteps { name, url } steps = .ok d) ↔
        ∃ s, Site.build { name, url, steps } = .ok s) ∧
      (∀ d s, addSteps { name, url } steps = .ok d → Site.build { name, url, steps } = .ok s →
        ∃ edited, Site.build d = .ok edited ∧ Site.Alike edited s) ∧
      ∀ e f, addSteps { name, url } steps = .error e → Site.build { name, url, steps } = .error f →
        e = f ∧ ∃ index, ∃ h : index < steps.length,
          RefusedAt Registry.full.create steps index f ∧
            ∃ d, addSteps { name, url } (steps.take index) = .ok d ∧
              d.addStep steps[index] = .error e := by
  have hheader : Site.headerFault? name url none = none := by
    unfold Site.headerFault?
    rw [if_neg named, if_neg located]
  have hnodup : (((({ name, url } : SiteDefinition).steps ++ steps)).map
      StepDefinition.name).Nodup := distinct
  have hadd := addSteps_eq hnodup
  rw [hadd]
  cases hchecked : steps.mapM Registry.full.create with
  | ok checked =>
    obtain ⟨site, hsite, hname, hurl, hlogin, hsteps⟩ :=
      Site.exists_buildWith_of_mapM_ok (d := { name, url, steps }) hheader hchecked
    have hdefinition : site.definition =
        { name, url, steps := checked.map Step.definition } := by
      rw [Site.definition, Site.credentials, hname, hurl, hlogin, hsteps]
      rfl
    refine ⟨⟨fun _ => ⟨site, hsite⟩, fun _ => ⟨_, rfl⟩⟩, ?_, ?_⟩
    · rintro d s ⟨⟩ hs
      obtain rfl := Except.ok.inj (hsite.symm.trans hs)
      exact ⟨site, (congrArg Site.build hdefinition.symm).trans site.build_definition, .refl site⟩
    · rintro e f ⟨⟩
  | error fault =>
    rw [Site.build, Site.buildWith_of_mapM_error (d := { name, url, steps }) hheader hchecked]
    refine ⟨⟨?_, ?_⟩, ?_, ?_⟩
    · rintro ⟨d, ⟨⟩⟩
    · rintro ⟨s, ⟨⟩⟩
    · rintro d s ⟨⟩
    · rintro e f ⟨⟩ ⟨⟩
      obtain ⟨index, hindex⟩ := exists_refusedAt hchecked
      exact ⟨rfl, index, hindex.within, hindex,
        exists_addStep_eq_error hnodup hindex.within hindex⟩

/-- Steps of which the second one lacks its key. -/
def unready : List StepDefinition :=
  [⟨"click", "open", [("key", .str "#open")]⟩, ⟨"click", "pay", []⟩, ⟨"hover", "leave", []⟩]

theorem addSteps_unready :
    "shop" ≠ "" ∧ "https://shop.example/" ≠ "" ∧ (unready.map StepDefinition.name).Nodup ∧
      ∃ index, ∃ h : index < unready.length,
        RefusedAt Registry.full.create unready index (.required .key) ∧
          ∃ d, addSteps { name := "shop", url := "https://shop.example/" } (unready.take index) =
              .ok d ∧
            d.addStep unready[index] = .error (.required .key) := by
  have hdistinct : (unready.map StepDefinition.name).Nodup := by decide
  refine ⟨by decide, by decide, hdistinct, ?_⟩
  exact ((addSteps_eq_build (by decide) (by decide) hdistinct).2.2 _ _ rfl rfl).2

end SiteDefinition

end SiteScript
