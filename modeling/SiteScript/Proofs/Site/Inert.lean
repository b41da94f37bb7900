import SiteScript.Proofs.Site.Loading
import SiteScript.Proofs.Step.Inert

/-!
# Members of sites that do not count

Null and unknown members are inert: objects that differ only in members that are null, and in members
that are not declared, are loaded as the same site, or have the same fault (`Site.ofJson_agree`).  This
holds of the members of the site, of its credentials, of its steps, and of their fields.  The one
exception is a null flag of a form, which is a fault, while an absent one means that the form is
submitted.
-/

namespace SiteScript

open Json

/-! ## Credentials -/

/-- The same credentials, or objects that differ only in members that credentials do not have or that
are null. -/
def Json.CredentialsAgree : Json → Json → Prop :=
  ObjectsAgree (Spare ["user", "pass"] []) fun _ v w => v = w

theorem Credentials.parts : record.Parts record.written where
  required := by simp [record]
  sets := by simp [record, Record.written, Except.map_eq_ok_iff]

theorem Credentials.read_agree {x y : Json} (h : CredentialsAgree x y) :
    record.read x = record.read y := by
  have hnull : record.NullIsAbsent record.written [] := by
    simp only [Record.NullIsAbsent, record, List.forall_mem_cons]
    exact ⟨fun _ => rfl, fun _ => rfl, List.forall_mem_nil _⟩
  exact hnull.read_eq parts recoverable rfl h

/-! ## Outlines -/

/-- The same value, or for the credentials and the steps of a site values that agree. -/
inductive Json.SiteAlike : String → Json → Json → Prop
  | same (key : String) (v : Json) : SiteAlike key v v
  | credentials {v w : Json} (value : CredentialsAgree v w) : SiteAlike "credentials" v w
  | steps {v w : Json} (items : ArraysAgree StepsAgree v w) : SiteAlike "steps" v w

/-- The same site, or objects that differ only in members that a site does not declare or that are null,
and so in its credentials and its steps. -/
def Json.SitesAgree : Json → Json → Prop :=
  ObjectsAgree (Spare ["name", "url", "credentials", "steps"] []) SiteAlike

namespace Site

/-- The steps of an outline, if they are read. -/
def stepDefinitions : Json → Except Fault (List StepDefinition)
  | .arr xs => readSteps 0 xs
  | _ => .error (.definition .stepsNotArray)

/-- The answers to the steps of an outline, if they are read. -/
def answers (x : Json) : Except Fault (List (Except Fault Step)) :=
  (stepDefinitions x).map (List.map Registry.full.create)

/-- What stands in an outline under a name; of the steps, only how they are answered. -/
def outlinePart (name : String) (o : Outline) :
    Option Json ⊕ Except Fault (List (Except Fault Step)) :=
  if name = "steps" then .inr (answers o.steps) else .inl (Outline.record.written name o)

theorem outline_parts : Outline.record.Parts outlinePart where
  required := by simp [Outline.record, Member.text]
  sets := by
    simp [Outline.record, Member.text, Record.written, Except.map_eq_ok_iff, outlinePart]

theorem outline_nullIsAbsent : Outline.record.NullIsAbsent outlinePart [] := by
  simp only [Record.NullIsAbsent, Outline.record, List.forall_mem_cons]
  exact ⟨fun _ => rfl, fun _ => rfl, fun _ => rfl, fun _ => rfl, List.forall_mem_nil _⟩

theorem readSteps_agree {xs ys : List Json} (h : List.Forall₂ StepsAgree xs ys) (index : Nat) :
    (readSteps index xs).map (List.map Registry.full.create) =
      (readSteps index ys).map (List.map Registry.full.create) := by
  induction h generalizing index with
  | nil => rfl
  | @cons x y xs ys hxy _ ih =>
    have hfirst := Registry.create_agree hxy
    rw [readSteps, readSteps]
    cases hx : StepDefinition.read x with
    | error e =>
      rw [hx] at hfirst
      rw [Except.map_eq_error_iff.1 hfirst.symm]
    | ok d =>
      rw [hx] at hfirst
      obtain ⟨e, he, hanswer⟩ := Except.map_eq_ok_iff.1 hfirst.symm
      rw [he]
      have hcons (d : StepDefinition) (ds : Except Fault (List StepDefinition)) :
          (ds.map (d :: ·)).map (List.map Registry.full.create) =
            (ds.map (List.map Registry.full.create)).map (Registry.full.create d :: ·) := by
        cases ds <;> rfl
      rw [hcons, hcons, ih, hanswer]

theorem answers_agree {v w : Json} (h : ArraysAgree StepsAgree v w) : answers v = answers w := by
  cases h with
  | refl => rfl
  | arr items => exact readSteps_agree items 0

/-- Outlines of objects that agree are read alike. -/
theorem read_outline_agree {x y : Json} (h : SitesAgree x y) :
    (Outline.record.read x).map (Outline.record.parts outlinePart) =
      (Outline.record.read y).map (Outline.record.parts outlinePart) := by
  refine outline_nullIsAbsent.read_agree _ outline_parts (by simp [Outline.record, Member.text])
    (fun key v w hvw => ?_) (fun _ _ => id) h
  cases hvw with
  | same => rfl
  | credentials value =>
    have hread : asOption Credentials.record.read v = asOption Credentials.record.read w := by
      cases value with
      | refl => rfl
      | obj left right members =>
        rw [asOption, asOption, Credentials.read_agree (.obj left right members)]
        · rintro ⟨⟩
        · rintro ⟨⟩
    rw [Record.partRead, Record.partRead, Record.readMember_optional (r := Outline.record) rfl,
      Record.readMember_optional (r := Outline.record) rfl, hread]
  | steps items =>
    rw [Record.partRead, Record.partRead, Record.readMember_optional (r := Outline.record) rfl,
      Record.readMember_optional (r := Outline.record) rfl]
    exact congrArg (fun a => Except.ok (Sum.inr a)) (answers_agree items)

/-- A site is built alike of definitions with the same header whose steps get the same answers. -/
theorem build_congr {d e : SiteDefinition} (hname : d.name = e.name) (hurl : d.url = e.url)
    (hcredentials : d.credentials = e.credentials)
    (hsteps : d.steps.map Registry.full.create = e.steps.map Registry.full.create) :
    build d = build e := by
  have hmapM (ds : List StepDefinition) :
      ds.mapM Registry.full.create = (ds.map Registry.full.create).mapM id := by
    rw [List.mapM_map]
    rfl
  exact buildWith_congr hname hurl hcredentials (by rw [hmapM, hmapM, hsteps])

/-- With a sound header a site is built of the steps of its outline. -/
theorem ofJson_of_read {ms : Members} {o : Outline} (ho : Outline.record.read (.obj ms) = .ok o)
    (hheader : headerFault? o.name o.url o.credentials = none) :
    ofJson (.obj ms) =
      stepDefinitions o.steps >>= fun ds => build ⟨o.name, o.url, o.credentials, ds⟩ := by
  unfold ofJson definitionOfJson
  rw [ho]
  simp only [hheader]
  cases o.steps with
  | arr xs =>
    simp only [stepDefinitions]
    cases readSteps 0 xs <;> rfl
  | null | bool | num | str | obj => rfl

/-- Outlines with the same parts are loaded alike. -/
theorem ofJson_congr {ms ns : Members} {o p : Outline} (ho : Outline.record.read (.obj ms) = .ok o)
    (hp : Outline.record.read (.obj ns) = .ok p)
    (h : Outline.record.parts outlinePart o = Outline.record.parts outlinePart p) :
    ofJson (.obj ms) = ofJson (.obj ns) := by
  obtain ⟨hname, hurl, hcredentials, hanswers⟩ : o.name = p.name ∧ o.url = p.url ∧
      o.credentials = p.credentials ∧ answers o.steps = answers p.steps := by
    simpa [Outline.record, Member.text, outlinePart, Record.written, Credentials.map_write_inj]
      using Record.parts_eq_iff.1 h
  cases hheader : headerFault? p.name p.url p.credentials with
  | some fault =>
    unfold ofJson definitionOfJson
    rw [ho, hp]
    simp only [hname, hurl, hcredentials, hheader]
  | none =>
    rw [ofJson_of_read hp hheader,
      ofJson_of_read ho (by rw [hname, hurl, hcredentials, hheader])]
    unfold answers at hanswers
    cases hds : stepDefinitions o.steps with
    | error e =>
      rw [hds] at hanswers
      rw [Except.map_eq_error_iff.1 hanswers.symm]
      rfl
    | ok ds =>
      rw [hds] at hanswers
      obtain ⟨es, hes, hcreate⟩ := Except.map_eq_ok_iff.1 hanswers.symm
      rw [hes]
      exact build_congr hname hurl hcredentials hcreate.symm

/-- Sites that agree are loaded as the same site, or have the same fault. -/
theorem ofJson_agree {x y : Json} (h : SitesAgree x y) : ofJson x = ofJson y := by
  have hread := read_outline_agree h
  cases h with
  | refl => rfl
  | @obj ms ns =>
    cases ho : Outline.record.read (.obj ms) with
    | error e =>
      rw [ho] at hread
      have hp := Except.map_eq_error_iff.1 hread.symm
      unfold ofJson definitionOfJson
      rw [ho, hp]
    | ok o =>
      rw [ho] at hread
      obtain ⟨p, hp, hparts⟩ := Except.map_eq_ok_iff.1 hread.symm
      exact ofJson_congr ho hp hparts.symm

/-! ## The flag of a form -/

theorem outline_parts_written : Outline.record.Parts Outline.record.written where
  required := by simp [Outline.record, Member.text]
  sets := by simp [Outline.record, Member.text, Record.written, Except.map_eq_ok_iff]

/-- The steps of an outline are those that are put into its object last. -/
theorem read_outline_insert {ms : Members} (hms : ms.Sorted) {o : Outline}
    (ho : Outline.record.read (.obj ms) = .ok o) (x : Json) :
    Outline.record.read (.obj (ms.insert "steps" x)) = .ok { o with steps := x } := by
  have hext : ∀ o p : Outline, Outline.record.parts Outline.record.written o =
      Outline.record.parts Outline.record.written p → o = p := by
    rintro ⟨⟩ ⟨⟩ h
    simpa [Outline.record, Member.text, Record.written, Credentials.map_write_inj] using
      Record.parts_eq_iff.1 h
  exact outline_parts_written.read_insert hext
    (List.mem_of_find?_eq_some (p := fun m => m.name = "steps") rfl) rfl rfl hms ho

/-- What an object that is loaded as a site is read as. -/
theorem exists_outline_of_ofJson {ms : Members} {s : Site} (h : ofJson (.obj ms) = .ok s) :
    ∃ o ds, Outline.record.read (.obj ms) = .ok o ∧
      headerFault? o.name o.url o.credentials = none ∧ stepDefinitions o.steps = .ok ds ∧
        ds.mapM Registry.full.create = .ok s.steps := by
  cases ho : Outline.record.read (.obj ms) with
  | error e =>
    unfold ofJson definitionOfJson at h
    rw [ho] at h
    cases h
  | ok o =>
    cases hheader : headerFault? o.name o.url o.credentials with
    | some fault =>
      unfold ofJson definitionOfJson at h
      rw [ho] at h
      simp only [hheader] at h
      cases h
    | none =>
      rw [ofJson_of_read ho hheader] at h
      obtain ⟨ds, hds, hbuild⟩ := Except.bind_eq_ok_iff.1 h
      exact ⟨o, ds, rfl, hheader, hds, (buildWith_eq_ok_iff.1 hbuild).2.1⟩

/-- What a step of an object that is loaded as a site is read as and built of, and that a site with a
faulty step in its place is refused. -/
theorem exists_step_of_ofJson {ms ns : Members} (hms : ms.Sorted) {xs : List Json}
    (hsteps : ms.get? "steps" = some (.arr xs)) {i : Nat} (hi : xs[i]? = some (.obj ns)) {s : Site}
    (h : ofJson (.obj ms) = .ok s) :
    ∃ d step, StepDefinition.read (.obj ns) = .ok d ∧ s.steps[i]? = some step ∧
      Registry.full.create d = .ok step ∧
        ∀ x e fault, StepDefinition.read x = .ok e → Registry.full.create e = .error fault →
          ofJson (.obj (ms.insert "steps" (.arr (xs.set i x)))) = .error fault := by
  obtain ⟨o, ds, ho, hheader, hread, hcreate⟩ := exists_outline_of_ofJson h
  have hxs : o.steps = .arr xs := by
    rw [steps_of_readMembers hms.nodup (read_outline ms ▸ ho), hsteps]
    rfl
  rw [hxs, stepDefinitions, readSteps_eq_ok_iff] at hread
  obtain ⟨d, hd, hdread⟩ := exists_getElem?_of_mapM hread hi
  obtain ⟨step, hstep, hdcreate⟩ := exists_getElem?_of_mapM hcreate hd
  refine ⟨d, step, hdread, hstep, hdcreate, fun x e fault he hfault => ?_⟩
  have hlength : i < xs.length := (List.getElem?_eq_some_iff.1 hi).1
  have hds : stepDefinitions (.arr (xs.set i x)) = .ok (ds.set i e) := by
    rw [stepDefinitions, readSteps_eq_ok_iff, mapM_set hread hlength, he]
    rfl
  have hdlength : i < ds.length := (List.getElem?_eq_some_iff.1 hd).1
  rw [ofJson_of_read (read_outline_insert hms ho (.arr (xs.set i x))) hheader, hds]
  refine buildWith_of_mapM_error (d := ⟨o.name, o.url, o.credentials, ds.set i e⟩) hheader ?_
  rw [mapM_set hcreate hdlength, hfault]
  rfl

/-- An absent flag of a form means that the form is submitted, and a null one is a fault. -/
theorem ofJson_null_submit {ms ns : Members} (hms : ms.Sorted) (hns : (ns.map Prod.fst).Nodup)
    {xs : List Json} (hsteps : ms.get? "steps" = some (.arr xs)) {i : Nat}
    (hi : xs[i]? = some (.obj ns)) {t : StepType} (ht : stepType? (.obj ns) = some t)
    (htype : t.Submits) (habsent : ns.get? "submit" = none) {s : Site}
    (h : ofJson (.obj ms) = .ok s) :
    ∃ step, s.steps[i]? = some step ∧ step.definition.get? "submit" = some (.bool true) ∧
      ∃ fault, ofJson (.obj (ms.insert "steps"
        (.arr (xs.set i (.obj (ns.insert "submit" .null)))))) =
          .error (.definition (.attributes step.name fault)) := by
  obtain ⟨d, step, hdread, hstep, hdcreate, hrefused⟩ := exists_step_of_ofJson hms hsteps hi h
  obtain ⟨htyped, -, hname, -⟩ := Registry.check_cases (Registry.create_eq_ok_iff.1 hdcreate)
  have hname : step.name = d.name := hname
  obtain ⟨-, htag, hattributes⟩ := StepDefinition.read_eq_ok_iff.1 hdread
  have hstepTag : step.type.tag = d.tag := StepDefinition.type_eq_ok_iff.1 htyped
  have hstepType : step.type = t := by
    rw [← hstepTag] at htag
    exact Option.some.inj ((Registry.stepType?_of_readText htag).symm.trans ht)
  rw [← hstepType] at htype
  refine ⟨step, hstep, Step.submit_of_absent hdcreate ?_ htype ?_, ?_⟩
  · rw [← hattributes]
    exact hns.sublist (List.filter_sublist.map _)
  · rw [StepDefinition.get?, ← hattributes, Members.get?_filter, habsent]
    rfl
  · obtain ⟨e, hread', hename, hetag, hnull⟩ :=
      StepDefinition.read_insert hdread (by decide : StepDefinition.isAttribute "submit" = true) .null
    obtain ⟨fault, hfault⟩ := Registry.create_of_null_submit (d := e)
      (by rw [hename, ← hname]; exact step.checked.named) (hstepTag.trans hetag.symm) htype hnull
    refine ⟨fault, (hrefused _ e _ hread' hfault).trans ?_⟩
    rw [hename, ← hname]

/-! ## Loading -/

/-- Sites that agree are loaded as the same site, or have the same fault.  A null flag of a form does
count: a site that is loaded without it, and so submits the form, is refused with it. -/
theorem ofJson_inert :
    (∀ x y, SitesAgree x y → ofJson x = ofJson y) ∧
      ∀ (ms ns : Members) (xs : List Json) (i : Nat) (t : StepType) (s : Site),
        ms.Sorted → (ns.map Prod.fst).Nodup → ms.get? "steps" = some (.arr xs) →
          xs[i]? = some (.obj ns) → stepType? (.obj ns) = some t → t.Submits →
          ns.get? "submit" = none → ofJson (.obj ms) = .ok s →
            ∃ step, s.steps[i]? = some step ∧
              step.definition.get? "submit" = some (.bool true) ∧
              ∃ fault, ofJson (.obj (ms.insert "steps"
                (.arr (xs.set i (.obj (ns.insert "submit" .null)))))) =
                  .error (.definition (.attributes step.name fault)) :=
  ⟨fun _ _ => ofJson_agree, fun _ _ _ _ _ _ hms hns hsteps hi ht htype habsent h =>
    ofJson_null_submit hms hns hsteps hi ht htype habsent h⟩

/-- A shop with members that are null and members that nobody knows, at every level. -/
def cluttered : Members :=
  [("color", .str "red"), ("credentials", .obj [("pass", .null), ("realm", .bool true)]),
    ("name", .str "shop"),
    ("steps", .arr [.obj [("fields", .arr [.obj [("attribute", .null), ("key", .str ".price"),
          ("unit", .str "EUR")]]),
        ("name", .str "prices"), ("submit", .null), ("type", .str "scrape")]]),
    ("url", .str "https://shop.example/")]

/-- The shop without them. -/
def tidied : Members :=
  [("credentials", .obj []), ("name", .str "shop"),
    ("steps", .arr [.obj [("fields", .arr [.obj [("key", .str ".price")]]),
        ("name", .str "prices"), ("type", .str "scrape")]]),
    ("url", .str "https://shop.example/")]

theorem ofJson_inert_cluttered :
    SitesAgree (.obj cluttered) (.obj tidied) ∧ ofJson (.obj cluttered) = ofJson (.obj tidied) := by
  have hnull {declared strict : List String} {key : String} (h : key ∉ strict) :
      Spare declared strict key .null := .inr ⟨rfl, h⟩
  have hunknown {declared strict : List String} {key : String} {v : Json} (h : key ∉ declared) :
      Spare declared strict key v := .inl h
  have hcredentials : CredentialsAgree (.obj [("pass", .null), ("realm", .bool true)]) (.obj []) :=
    .obj (by decide) (by decide) (.drop (hnull (by decide)) (.drop (hunknown (by decide)) .nil))
  have hfield : FieldsAgree ScrapeField.names
      (.obj [("attribute", .null), ("key", .str ".price"), ("unit", .str "EUR")])
      (.obj [("key", .str ".price")]) :=
    .obj (by decide) (by decide)
      (.drop (hnull (by decide)) (.keep rfl (.drop (hunknown (by decide)) .nil)))
  have hstep : StepsAgree
      (.obj [("fields", .arr [.obj [("attribute", .null), ("key", .str ".price"),
        ("unit", .str "EUR")]]), ("name", .str "prices"), ("submit", .null), ("type", .str "scrape")])
      (.obj [("fields", .arr [.obj [("key", .str ".price")]]), ("name", .str "prices"),
        ("type", .str "scrape")]) :=
    .obj (by decide) (by decide)
      (.keep (.inr ⟨.scrape, rfl, .fields rfl (.arr (.cons hfield .nil))⟩)
        (.keep (.inl rfl) (.drop (hunknown (by decide)) (.keep (.inl rfl) .nil))))
  have hsites : SitesAgree (.obj cluttered) (.obj tidied) :=
    .obj (by decide) (by decide)
      (.drop (hunknown (by decide)) (.keep (.credentials hcredentials)
        (.keep (.same _ _) (.keep (.steps (.arr (.cons hstep .nil))) (.keep (.same _ _) .nil)))))
  exact ⟨hsites, ofJson_inert.1 _ _ hsites⟩

end Site

end SiteScript
