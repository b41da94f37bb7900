import SiteScript.Proofs.Site.Authentication
import SiteScript.Proofs.Site.Reload
import SiteScript.Proofs.Site.Traversal

/-!
# What is built of a definition

A definition is built if it has a name and a start page, both credentials or neither, and steps that
are all accepted; otherwise the first fault in this order is reported.  `Constructed` has a constructor
for each way in which this ends, and `Built` says what the site has of its definition.
-/

namespace SiteScript

namespace SiteDefinition

variable {d : SiteDefinition}

/-! ## What is built -/

/-- What a site has of the definition that it is built of. -/
structure Built (d : SiteDefinition) (s : Site) : Prop where
  name : s.name = d.name
  url : s.url = d.url
  /-- The credentials are those of the definition if both are set, and else there are none. -/
  credentials : ∀ c, s.credentials = some c ↔ d.credentials = some c ∧ IsSet c.user ∧ IsSet c.pass
  /-- The steps are the checked steps of the definition, one for each and in their order. -/
  steps : List.Forall₂ (fun t step => Registry.full.check t = .ok step.checked) d.steps s.steps
  /-- Names are kept, also those that several steps have. -/
  names : s.steps.map Step.name = d.steps.map StepDefinition.name

/-- The ways in which building a definition ends. -/
inductive Constructed (d : SiteDefinition) : Except Fault Site → Prop
  | unnamed (name : d.name = "") : Constructed d (.error (.required .siteName))
  | unlocated (name : d.name ≠ "") (url : d.url = "") : Constructed d (.error (.required .siteUrl))
  | halfSet (name : d.name ≠ "") (url : d.url ≠ "") (c : Credentials)
    (given : d.credentials = some c) (half : ¬ (IsSet c.user ↔ IsSet c.pass)) :
    Constructed d (.error .halfCredentials)
  | refused (header : d.HeaderSound) (index : Nat) (fault : Fault)
    (first : RefusedAt Registry.full.check d.steps index fault) : Constructed d (.error fault)
  | built (header : d.HeaderSound) (s : Site) (h : d.Built s) : Constructed d (.ok s)

theorem bind_login?_eq_some_iff {l : Login} :
    d.credentials.bind Credentials.login? = some l ↔ d.credentials = some l.credentials := by
  rw [Option.bind_eq_some_iff]
  constructor
  · rintro ⟨c, hc, hl⟩
    rw [hc, Credentials.login?_eq_some_iff.1 hl]
  · intro h
    exact ⟨l.credentials, h, l.login?_credentials⟩

theorem credentials_eq_some_iff {s : Site} (h : s.login = d.credentials.bind Credentials.login?)
    (c : Credentials) :
    s.credentials = some c ↔ d.credentials = some c ∧ IsSet c.user ∧ IsSet c.pass := by
  rw [Site.credentials, h, Option.map_eq_some_iff]
  constructor
  · rintro ⟨l, hl, rfl⟩
    exact ⟨bind_login?_eq_some_iff.1 hl, ⟨l.user, rfl, l.user_ne⟩, ⟨l.pass, rfl, l.pass_ne⟩⟩
  · rintro ⟨hc, hset⟩
    cases hlogin : c.login? with
    | none => exact absurd hset (Credentials.login?_eq_none_iff.1 hlogin)
    | some l =>
      obtain rfl := Credentials.login?_eq_some_iff.1 hlogin
      exact ⟨l, bind_login?_eq_some_iff.2 hc, rfl⟩

theorem map_name_of_check {ts : List StepDefinition} {steps : List Step}
    (h : List.Forall₂ (fun t step => Registry.full.check t = .ok step.checked) ts steps) :
    steps.map Step.name = ts.map StepDefinition.name := by
  induction h with
  | nil => rfl
  | @cons t step _ _ hstep _ ih =>
    have hname : step.name = t.name := (Registry.check_cases hstep).2.2.1
    rw [List.map_cons, List.map_cons, hname, ih]

theorem built_of_mapM {s : Site} (hsteps : d.steps.mapM Registry.full.create = .ok s.steps)
    (hname : s.name = d.name) (hurl : s.url = d.url)
    (hlogin : s.login = d.credentials.bind Credentials.login?) : d.Built s := by
  have hchecked : List.Forall₂ (fun t step => Registry.full.check t = .ok step.checked) d.steps
      s.steps := (mapM_eq_ok_iff.1 hsteps).imp fun _ _ => Registry.create_eq_ok_iff.1
  exact ⟨hname, hurl, credentials_eq_some_iff hlogin, hchecked, map_name_of_check hchecked⟩

theorem constructed_of_header (h : Site.headerFault? d.name d.url d.credentials = none) :
    Constructed d (Site.build d) := by
  have hsound := headerFault?_eq_none_iff.1 h
  rw [Site.build]
  cases hsteps : d.steps.mapM Registry.full.create with
  | error fault =>
    obtain ⟨index, hfirst⟩ := exists_refusedAt hsteps
    have hrefused : RefusedAt Registry.full.check d.steps index fault := by
      simpa only [Registry.map_checked_create] using hfirst.map Step.checked
    rw [Site.buildWith_of_mapM_error h hsteps]
    exact .refused hsound index fault hrefused
  | ok steps =>
    obtain ⟨s, hs, hname, hurl, hlogin, rfl⟩ := Site.exists_buildWith_of_mapM_ok h hsteps
    rw [hs]
    exact .built hsound s (built_of_mapM hsteps hname hurl hlogin)

theorem constructed_of_headerFault {fault : Fault}
    (h : Site.headerFault? d.name d.url d.credentials = some fault) :
    Constructed d (.error fault) := by
  unfold Site.headerFault? at h
  split_ifs at h with hname hurl
  · cases h
    exact .unnamed hname
  · cases h
    exact .unlocated hname hurl
  · split at h
    · next c hc =>
      split_ifs at h with heq
      cases h
      exact .halfSet hname hurl c hc fun hset => heq (c.userSet_eq_passSet_iff.2 hset)
    · cases h

/-- Building a definition ends in one of these ways. -/
theorem constructed_build (d : SiteDefinition) : Constructed d (Site.build d) := by
  cases h : Site.headerFault? d.name d.url d.credentials with
  | none => exact constructed_of_header h
  | some fault =>
    rw [Site.build, Site.buildWith_of_headerFault h]
    exact constructed_of_headerFault h

theorem built_of_build {s : Site} (h : Site.build d = .ok s) : d.HeaderSound ∧ d.Built s := by
  have hconstructed := constructed_build d
  rw [h] at hconstructed
  cases hconstructed with
  | built header s hbuilt => exact ⟨header, hbuilt⟩

/-- A definition is built if and only if its header is sound and each of its steps is accepted. -/
theorem exists_build_iff : (∃ s, Site.build d = .ok s) ↔
    d.HeaderSound ∧ ∀ t ∈ d.steps, ∃ v, Registry.full.check t = .ok v := by
  have hcreate (t : StepDefinition) :
      (∃ s, Registry.full.create t = .ok s) ↔ ∃ v, Registry.full.check t = .ok v := by
    simp only [← Registry.map_checked_create, Except.map_eq_ok_iff]
    exact ⟨fun ⟨s, hs⟩ => ⟨s.checked, s, hs, rfl⟩, fun ⟨_, s, hs, _⟩ => ⟨s, hs⟩⟩
  simp only [← hcreate, ← exists_mapM_eq_ok_iff, ← headerFault?_eq_none_iff]
  constructor
  · rintro ⟨s, hs⟩
    obtain ⟨hheader, hsteps, -⟩ := Site.buildWith_eq_ok_iff.1 hs
    exact ⟨hheader, s.steps, hsteps⟩
  · rintro ⟨hheader, steps, hsteps⟩
    obtain ⟨s, hs, -⟩ := Site.exists_buildWith_of_mapM_ok hheader hsteps
    exact ⟨s, hs⟩

/-! ## Logging in -/

/-- A script logs in with the credentials of a definition if both are set, and else not at all. -/
structure LoggedIn (d : SiteDefinition) (script : String) : Prop where
  both : ∀ c user pass, d.credentials = some c → c.user = some user → c.pass = some pass →
    user ≠ "" → pass ≠ "" →
      Site.authCalls script = some [[[.literal '\'' user], [.literal '\'' pass]]] ∧
      ("casper.setHttpAuth('" ++ Literal.escape user ++ "', '" ++ Literal.escape pass ++ "');").toList ∈
        Text.lines script.toList
  otherwise : (¬ ∃ c, d.credentials = some c ∧ IsSet c.user ∧ IsSet c.pass) →
    Site.authCalls script = some []

theorem Built.exists_compile {s : Site} (h : d.Built s) (w : IndentWidth) :
    ∃ script, s.compile w = .ok script ∧ d.LoggedIn script := by
  obtain ⟨script, hcompile, hcalls, hline⟩ := s.exists_compile_login w
  refine ⟨script, hcompile, ?_, ?_⟩
  · rintro ⟨-, -⟩ user pass hc rfl rfl huser hpass
    have hgiven := (h.credentials ⟨some user, some pass⟩).2 ⟨hc, ⟨user, rfl, huser⟩, ⟨pass, rfl, hpass⟩⟩
    obtain ⟨l, hl, hcredentials⟩ := Option.map_eq_some_iff.1 hgiven
    cases hcredentials
    rw [hl] at hcalls
    exact ⟨hcalls, hline l hl⟩
  · intro hunset
    cases hl : s.login with
    | none =>
      rw [hl] at hcalls
      exact hcalls
    | some l =>
      have hgiven : s.credentials = some l.credentials := congrArg (Option.map Login.credentials) hl
      exact absurd ⟨l.credentials, (h.credentials _).1 hgiven⟩ hunset

/-- A definition is built if and only if its header is sound and each of its steps is accepted, the
site has then what the definition says, and its script logs in exactly if both credentials are set.
Otherwise the first fault is reported. -/
theorem construction (d : SiteDefinition) :
    d.Constructed (Site.build d) ∧
      ((∃ s, Site.build d = .ok s) ↔
        d.HeaderSound ∧ ∀ t ∈ d.steps, ∃ v, Registry.full.check t = .ok v) ∧
      ∀ s, Site.build d = .ok s → ∀ w, ∃ script, s.compile w = .ok script ∧ d.LoggedIn script :=
  ⟨constructed_build d, exists_build_iff, fun _ hs w => (built_of_build hs).2.exists_compile w⟩

end SiteDefinition

end SiteScript
