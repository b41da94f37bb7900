import Mathlib.Data.List.Basic
import SiteScript.Site.Basic

/-!
# Building sites

What building a definition depends on: its header, which has to be sound (`headerFault?_eq_none_iff`),
and the steps that its own are made into (`Site.buildWith_eq_ok_iff`).
-/

namespace SiteScript

/-! ## Credentials -/

/-- A user or a password is set if it is there and not empty. -/
def IsSet (s : Option String) : Prop :=
  ∃ t, s = some t ∧ t ≠ ""

theorem getD_ne_empty_iff {s : Option String} : s.getD "" ≠ "" ↔ IsSet s := by
  cases s with
  | none => exact iff_of_false (fun h => h rfl) (by rintro ⟨t, h, -⟩; cases h)
  | some t =>
    constructor
    · exact fun h => ⟨t, rfl, h⟩
    · rintro ⟨_, ⟨⟩, h⟩
      exact h

theorem Login.login?_credentials (l : Login) : l.credentials.login? = some l := by
  obtain ⟨user, pass, user_ne, pass_ne⟩ := l
  simp [Login.credentials, Credentials.login?, user_ne, pass_ne]

namespace Credentials

theorem userSet_iff (c : Credentials) : c.userSet = true ↔ IsSet c.user :=
  decide_eq_true_iff.trans getD_ne_empty_iff

theorem passSet_iff (c : Credentials) : c.passSet = true ↔ IsSet c.pass :=
  decide_eq_true_iff.trans getD_ne_empty_iff

theorem userSet_eq_passSet_iff (c : Credentials) :
    c.userSet = c.passSet ↔ (IsSet c.user ↔ IsSet c.pass) := by
  rw [← userSet_iff, ← passSet_iff, Bool.eq_iff_iff]

/-- Credentials are a login if and only if both are set. -/
theorem login?_eq_some_iff {c : Credentials} {l : Login} :
    c.login? = some l ↔ c = l.credentials := by
  constructor
  · intro h
    unfold login? at h
    split_ifs at h with hset
    cases h
    obtain ⟨huser, hpass⟩ := hset
    obtain ⟨user, hu, -⟩ := getD_ne_empty_iff.1 huser
    obtain ⟨pass, hp, -⟩ := getD_ne_empty_iff.1 hpass
    cases c
    simp_all [Login.credentials]
  · rintro rfl
    exact l.login?_credentials

theorem login?_eq_none_iff {c : Credentials} :
    c.login? = none ↔ ¬ (IsSet c.user ∧ IsSet c.pass) := by
  rw [← getD_ne_empty_iff, ← getD_ne_empty_iff]
  unfold login?
  split_ifs with hset
  · exact iff_of_false (by simp) (not_not.2 hset)
  · exact iff_of_true rfl hset

end Credentials

/-! ## Headers -/

namespace SiteDefinition

/-- What is asked of a definition apart from its steps: a name, a start page, and both credentials or
neither. -/
structure HeaderSound (d : SiteDefinition) : Prop where
  name : d.name ≠ ""
  url : d.url ≠ ""
  credentials : ∀ c, d.credentials = some c → (IsSet c.user ↔ IsSet c.pass)

theorem headerFault?_eq_none_iff {d : SiteDefinition} :
    Site.headerFault? d.name d.url d.credentials = none ↔ d.HeaderSound := by
  constructor
  · intro h
    have hname := Site.name_ne_of_headerFault? h
    have hurl := Site.url_ne_of_headerFault? h
    refine ⟨hname, hurl, fun c hc => c.userSet_eq_passSet_iff.1 ?_⟩
    unfold Site.headerFault? at h
    rw [if_neg hname, if_neg hurl, hc] at h
    by_contra hne
    simp [hne] at h
  · rintro ⟨hname, hurl, hcredentials⟩
    unfold Site.headerFault?
    rw [if_neg hname, if_neg hurl]
    rcases hc : d.credentials with _ | c
    · rfl
    · simp only [c.userSet_eq_passSet_iff.2 (hcredentials c hc), if_true]

end SiteDefinition

/-! ## Building -/

namespace Site

variable {K : Kinds} {r : Registry K} {d : SiteDefinition}

theorem buildWith_of_headerFault {fault : Fault}
    (h : headerFault? d.name d.url d.credentials = some fault) : buildWith r d = .error fault := by
  unfold buildWith
  -- The site holds proofs of what is matched on, so the match is split instead of rewritten.
  split
  · next heq =>
    rw [h] at heq
    cases heq
    rfl
  · next heq =>
    rw [h] at heq
    cases heq

/-- With a sound header the first step that is refused is what is reported. -/
theorem buildWith_of_mapM_error (h : headerFault? d.name d.url d.credentials = none) {fault : Fault}
    (hsteps : d.steps.mapM r.create = .error fault) : buildWith r d = .error fault := by
  unfold buildWith
  split
  · next heq =>
    rw [h] at heq
    cases heq
  · split
    · next heq =>
      rw [hsteps] at heq
      cases heq
      rfl
    · next heq =>
      rw [hsteps] at heq
      cases heq

/-- With a sound header a definition is built if its steps are made, and the site has these steps. -/
theorem exists_buildWith_of_mapM_ok (h : headerFault? d.name d.url d.credentials = none)
    {steps : List (Step K)} (hsteps : d.steps.mapM r.create = .ok steps) :
    ∃ s, buildWith r d = .ok s ∧ s.name = d.name ∧ s.url = d.url ∧
      s.login = d.credentials.bind Credentials.login? ∧ s.steps = steps := by
  unfold buildWith
  split
  · next heq =>
    rw [h] at heq
    cases heq
  · split
    · next heq =>
      rw [hsteps] at heq
      cases heq
    · next heq =>
      rw [hsteps] at heq
      cases heq
      exact ⟨_, rfl, rfl, rfl, rfl, rfl⟩

/-- The site that a definition builds. -/
theorem buildWith_eq_ok_iff {s : Site K} : buildWith r d = .ok s ↔
    headerFault? d.name d.url d.credentials = none ∧ d.steps.mapM r.create = .ok s.steps ∧
      s.name = d.name ∧ s.url = d.url ∧ s.login = d.credentials.bind Credentials.login? := by
  cases hheader : headerFault? d.name d.url d.credentials with
  | some fault => simp [buildWith_of_headerFault hheader]
  | none =>
    cases hsteps : d.steps.mapM r.create with
    | error fault => simp [buildWith_of_mapM_error hheader hsteps]
    | ok steps =>
      obtain ⟨t, ht, hname, hurl, hlogin, htsteps⟩ := exists_buildWith_of_mapM_ok hheader hsteps
      rw [ht]
      constructor
      · rintro ⟨⟩
        exact ⟨rfl, congrArg Except.ok htsteps.symm, hname, hurl, hlogin⟩
      · rintro ⟨-, hs, hsname, hsurl, hslogin⟩
        have hstep := Except.ok.inj hs
        exact congrArg Except.ok (Site.ext (hname.trans hsname.symm) (hurl.trans hsurl.symm)
          (hlogin.trans hslogin.symm) (htsteps.trans hstep))

/-- Definitions with the same header whose steps are made alike are built alike. -/
theorem buildWith_congr {e : SiteDefinition} (hname : d.name = e.name) (hurl : d.url = e.url)
    (hcredentials : d.credentials = e.credentials)
    (hsteps : d.steps.mapM r.create = e.steps.mapM r.create) : buildWith r d = buildWith r e := by
  obtain ⟨name, url, credentials, ds⟩ := d
  obtain ⟨_, _, _, es⟩ := e
  obtain rfl : name = _ := hname
  obtain rfl : url = _ := hurl
  obtain rfl : credentials = _ := hcredentials
  cases hheader : headerFault? name url credentials with
  | some fault => rw [buildWith_of_headerFault hheader, buildWith_of_headerFault hheader]
  | none =>
    cases hmade : ds.mapM r.create with
    | error fault =>
      rw [buildWith_of_mapM_error hheader hmade,
        buildWith_of_mapM_error hheader (hsteps.symm.trans hmade)]
    | ok steps =>
      obtain ⟨s, hs, -⟩ := exists_buildWith_of_mapM_ok (d := ⟨name, url, credentials, ds⟩) hheader hmade
      obtain ⟨-, hds, hheld⟩ := buildWith_eq_ok_iff.1 hs
      rw [hs]
      exact (buildWith_eq_ok_iff.2 ⟨hheader, hsteps.symm.trans hds, hheld⟩).symm

end Site

end SiteScript
