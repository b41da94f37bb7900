import Mathlib.Data.List.Basic
import SiteScript.Proofs.Site.Building
import SiteScript.Proofs.Step.Stored
import SiteScript.Site.Script

/-!
# Reloading sites

The definition of a site builds that site again, directly and through the text that is written of it
(`build_definition`, `ofText_definition`).  A site that is saved and loaded is therefore the same in
everything an editor or a run sees of it (`reload`).
-/

namespace SiteScript

/-! ## Headers -/

theorem Credentials.recoverable (c : Credentials) : Credentials.record.Recoverable c where
  nodup := by decide
  restores := by
    obtain ⟨_ | user, _ | pass⟩ := c <;> simp [Credentials.record, Except.map]
  omits := by simp [Credentials.record]
  ext := by
    cases c
    rintro ⟨⟩
    simp +contextual [Credentials.record]

@[simp]
theorem Credentials.asOption_read (c : Credentials) :
    Json.asOption record.read (record.write c).canonical = .ok (some c) := by
  have hread := c.recoverable.read_canonical
  rw [Record.canonical_write] at hread ⊢
  rw [Json.asOption, hread]
  · rfl
  · rintro ⟨⟩

theorem Credentials.map_write_inj {a b : Option Credentials} :
    a.map record.write = b.map record.write ↔ a = b :=
  (Option.map_injective (Record.write_injective recoverable)).eq_iff

namespace Site

theorem bind_login?_credentials {K : Kinds} (s : Site K) : s.credentials.bind Credentials.login? = s.login := by
  rcases hlogin : s.login with _ | l
  · rw [credentials, hlogin]
    rfl
  · rw [credentials, hlogin]
    exact l.login?_credentials

theorem headerFault?_definition (s : Site) : headerFault? s.name s.url s.credentials = none := by
  unfold headerFault?
  rw [if_neg s.named, if_neg s.located, credentials]
  rcases s.login with _ | l
  · rfl
  · have huser : l.credentials.userSet = true := decide_eq_true l.user_ne
    have hpass : l.credentials.passSet = true := decide_eq_true l.pass_ne
    simp only [Option.map_some, huser, hpass, if_true]

/-! ## Building -/

theorem mapM_create_definition {steps : List Step}
    (h : ∀ s ∈ steps, s.checked.Settled .builtin) :
    (steps.map Step.definition).mapM Registry.full.create = .ok steps := by
  induction steps with
  | nil => rfl
  | cons s steps ih =>
    obtain ⟨hs, hsteps⟩ := List.forall_mem_cons.1 h
    rw [List.map_cons, List.mapM_cons, Step.create_definition hs, ih hsteps]
    rfl

/-- The definition of a site builds that site. -/
theorem build_definition (s : Site) : build s.definition = .ok s :=
  buildWith_eq_ok_iff.2 ⟨s.headerFault?_definition, mapM_create_definition s.settled, rfl, rfl,
    s.bind_login?_credentials.symm⟩

theorem definition_injective : Function.Injective (definition (K := .builtin)) :=
  Except.injective_of_ok build_definition

/-! ## Text -/

theorem Outline.recoverable {o : Outline} (h : o.steps.canonical = o.steps) :
    Outline.record.Recoverable o where
  nodup := by decide
  restores := by simp +contextual [Outline.record, Member.text, Except.map, h]
  omits := by simp [Outline.record, Member.text]
  ext := by
    cases o
    rintro ⟨⟩
    simp +contextual [Outline.record, Member.text, Credentials.map_write_inj]

theorem readSteps_definitions (index : Nat) {steps : List Step}
    (h : ∀ s ∈ steps, s.checked.Settled .builtin) : readSteps index
      (steps.map fun s => s.definition.write.canonical) = .ok (steps.map Step.definition) := by
  induction steps generalizing index with
  | nil => rfl
  | cons s steps ih =>
    obtain ⟨hs, hsteps⟩ := List.forall_mem_cons.1 h
    rw [List.map_cons, readSteps, (Step.tidy_definition hs).read_canonical]
    simp only [ih _ hsteps]
    rfl

/-- The outline that is read from the definition of a site. -/
def outline (s : Site) : Outline :=
  ⟨s.name, s.url, s.credentials, .arr (s.steps.map fun t => t.definition.write.canonical)⟩

theorem canonical_steps_outline (s : Site) : s.outline.steps.canonical = s.outline.steps := by
  rw [outline, Json.canonical, Json.canonicalItems_eq_map, List.map_map]
  simp only [Function.comp_def, Json.canonical_canonical]

theorem write_definition (s : Site) :
    SiteDefinition.record.write s.definition = Outline.record.write
      ⟨s.name, s.url, s.credentials, .arr (s.definition.steps.map StepDefinition.write)⟩ := rfl

theorem canonical_write_definition (s : Site) :
    (SiteDefinition.record.write s.definition).canonical =
      (Outline.record.write s.outline).canonical := by
  rw [write_definition]
  refine Record.canonical_write_congr ?_
  simp [Outline.record, Member.text, outline, definition, Json.canonical,
    Json.canonicalItems_eq_map, Function.comp_def, Json.canonical_canonical]

/-- The definition of a site is read back from the sorted form of what is written of it. -/
theorem definitionOfJson_write (s : Site) :
    definitionOfJson (SiteDefinition.record.write s.definition).canonical = .ok s.definition := by
  have hread := (Outline.recoverable s.canonical_steps_outline).read_canonical
  have hheader : headerFault? s.outline.name s.outline.url s.outline.credentials = none :=
    s.headerFault?_definition
  rw [canonical_write_definition]
  rw [Record.canonical_write] at hread ⊢
  simp only [definitionOfJson, hread, hheader]
  simp only [outline, readSteps_definitions 0 s.settled]
  rfl

theorem readable_write_definition (s : Site) :
    Json.Readable Json.maxDepth (SiteDefinition.record.write s.definition) := by
  have hsteps : Json.Readable 4 (.arr (s.definition.steps.map StepDefinition.write)) := by
    rw [definition, List.map_map]
    apply Json.Readable.arr
    intro x hx
    obtain ⟨t, ht, rfl⟩ := List.mem_map.1 hx
    exact (Step.tidy_definition (s.settled t ht)).readable_write
  have hcredentials (c : Credentials) : Json.Readable 4 (Credentials.record.write c) :=
    Record.readable_write (by simp +contextual [Credentials.record, Json.Readable.str])
  have hobj : Json.Readable 5 (SiteDefinition.record.write s.definition) := by
    rw [write_definition]
    refine Record.readable_write ?_
    simp +contextual [Outline.record, Member.text, Json.Readable.str, hcredentials, hsteps]
  exact hobj.mono (by decide)

/-- The text of the definition of a site holds that site. -/
theorem ofText_definition (s : Site) :
    ofText (SiteDefinition.record.write s.definition).compact = .ok s := by
  rw [ofText, Json.parse_compact s.readable_write_definition]
  simp only [ofJson, definitionOfJson_write]
  exact s.build_definition

/-! ## Saving and loading -/

/-- Two sites that neither an editor nor a run can tell apart. -/
structure Alike (a b : Site) : Prop where
  equal : (a == b) = true
  definition : a.definition = b.definition
  params : a.params = b.params
  compile : ∀ w, a.compile w = b.compile w

theorem Alike.refl (s : Site) : Alike s s :=
  ⟨decide_eq_true rfl, rfl, rfl, fun _ => rfl⟩

/-- A site is the same after it has been saved and loaded, as a definition or as a text. -/
theorem reload (s : Site) :
    ∃ built read, build s.definition = .ok built ∧
      ofText (SiteDefinition.record.write s.definition).compact = .ok read ∧
      Alike built s ∧ Alike read s :=
  ⟨s, s, s.build_definition, s.ofText_definition, .refl s, .refl s⟩

end Site

end SiteScript
