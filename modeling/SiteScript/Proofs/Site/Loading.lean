import SiteScript.Proofs.Site.Reload

/-!
# Loading definitions and values

A site is loaded from a definition that has been read as a whole, or from a JSON value of which an
outline is read first and each step later.  The outline and the definition that are read from the
members of one object agree (`Agrees`, `readMembers_agree`), so both ways of loading give the same
site or the same fault (`ofJson_eq_build`).
-/

namespace SiteScript.Site

/-! ## Outlines and definitions -/

/-- Read the steps of a site from the value of its member. -/
def readStepList : Json → Except ShapeFault (List StepDefinition) :=
  Json.orBlank [] (Json.asList StepDefinition.read)

/-- An outline and a definition of one site; the steps of the outline are those of the definition
when they are read. -/
structure Agrees (o : Outline) (d : SiteDefinition) : Prop where
  name : o.name = d.name
  url : o.url = d.url
  credentials : o.credentials = d.credentials
  steps : readStepList o.steps = .ok d.steps

theorem agrees_blank : Agrees Outline.record.blank SiteDefinition.record.blank :=
  ⟨rfl, rfl, rfl, rfl⟩

/-- Outcomes of reading an outline and a definition: the same fault, or values that agree. -/
inductive AgreeRead : Except ShapeFault Outline → Except ShapeFault SiteDefinition → Prop where
  | fault (e : ShapeFault) : AgreeRead (.error e) (.error e)
  | ok {o : Outline} {d : SiteDefinition} (h : Agrees o d) : AgreeRead (.ok o) (.ok d)

variable {o : Outline} {d : SiteDefinition}

theorem agreeRead_map {β : Type} {f : β → Outline} {g : β → SiteDefinition}
    (h : ∀ x, Agrees (f x) (g x)) (outcome : Except ShapeFault β) :
    AgreeRead (outcome.map f) (outcome.map g) := by
  cases outcome with
  | error e => exact .fault e
  | ok x => exact .ok (h x)

/-- A member is read alike, and so are steps unless they are refused. -/
theorem readMember_agree (h : Agrees o d) {key : String} {value : Json}
    (hsteps : key = "steps" → ∃ steps, readStepList value = .ok steps) :
    AgreeRead (Outline.record.readMember o key value)
      (SiteDefinition.record.readMember d key value) := by
  obtain ⟨hname, hurl, hcredentials, hlist⟩ := h
  by_cases hn : key = "name"
  · subst hn
    rw [Record.readMember_optional (r := Outline.record) rfl,
      Record.readMember_optional (r := SiteDefinition.record) rfl]
    apply agreeRead_map
    exact fun s => ⟨rfl, hurl, hcredentials, hlist⟩
  by_cases hu : key = "url"
  · subst hu
    rw [Record.readMember_optional (r := Outline.record) rfl,
      Record.readMember_optional (r := SiteDefinition.record) rfl]
    apply agreeRead_map
    exact fun s => ⟨hname, rfl, hcredentials, hlist⟩
  by_cases hc : key = "credentials"
  · subst hc
    rw [Record.readMember_optional (r := Outline.record) rfl,
      Record.readMember_optional (r := SiteDefinition.record) rfl]
    apply agreeRead_map
    exact fun c => ⟨hname, hurl, rfl, hlist⟩
  by_cases hs : key = "steps"
  · subst hs
    obtain ⟨steps, hread⟩ := hsteps rfl
    rw [Record.readMember_optional (r := Outline.record) rfl,
      Record.readMember_optional (r := SiteDefinition.record) rfl, ← readStepList, hread]
    exact .ok ⟨hname, hurl, hcredentials, hread⟩
  · unfold Record.readMember
    simp only [Outline.record, SiteDefinition.record, Member.text, Member.list, List.find?,
      Member.name_optional, Ne.symm hn, Ne.symm hu, Ne.symm hc, Ne.symm hs, decide_false]
    exact .ok ⟨hname, hurl, hcredentials, hlist⟩

/-- The members of an object are read alike unless the steps are refused. -/
theorem readMembers_agree (h : Agrees o d) {ms : Members}
    (hsteps : ∀ m ∈ ms, m.1 = "steps" → ∃ steps, readStepList m.2 = .ok steps) :
    AgreeRead (Outline.record.readMembers o ms) (SiteDefinition.record.readMembers d ms) := by
  induction ms generalizing o d with
  | nil => exact .ok h
  | cons m ms ih =>
    obtain ⟨hm, hms⟩ := List.forall_mem_cons.1 hsteps
    have hfirst := readMember_agree h hm
    rw [Record.readMembers, Record.readMembers, List.foldlM_cons, List.foldlM_cons]
    cases ho : Outline.record.readMember o m.1 m.2 with
    | error e =>
      rw [ho] at hfirst
      generalize SiteDefinition.record.readMember d m.1 m.2 = second at hfirst
      cases hfirst
      exact .fault e
    | ok o' =>
      rw [ho] at hfirst
      generalize SiteDefinition.record.readMember d m.1 m.2 = second at hfirst
      cases hfirst with
      | ok h' => exact ih h' hms

theorem readStepList_of_readMembers {d' : SiteDefinition} {ms : Members}
    (h : SiteDefinition.record.readMembers d ms = .ok d') :
    ∀ m ∈ ms, m.1 = "steps" → ∃ steps, readStepList m.2 = .ok steps := by
  induction ms generalizing d with
  | nil => exact List.forall_mem_nil _
  | cons m ms ih =>
    obtain ⟨key, value⟩ := m
    rw [Record.readMembers, List.foldlM_cons] at h
    obtain ⟨next, hm, hnext⟩ := Except.bind_eq_ok_iff.1 h
    refine List.forall_mem_cons.2 ⟨?_, ih hnext⟩
    rintro rfl
    rw [Record.readMember_optional rfl] at hm
    obtain ⟨steps, hsteps, -⟩ := Except.map_eq_ok_iff.1 hm
    exact ⟨steps, hsteps⟩

theorem steps_of_readMembers {ms : Members} (hkeys : (ms.map Prod.fst).Nodup)
    (h : Outline.record.readMembers Outline.record.blank ms = .ok o) :
    o.steps = (ms.get? "steps").getD .null := by
  have hothers : ∀ m ∈ Outline.record.members, m.name ≠ "steps" → m.Keeps Outline.steps := by
    simp only [Outline.record, List.forall_mem_cons]
    exact ⟨fun _ => Member.keeps_optional _ _ _ _ _ fun _ _ => rfl,
      fun _ => Member.keeps_optional _ _ _ _ _ fun _ _ => rfl,
      fun _ => Member.keeps_optional _ _ _ _ _ fun _ _ => rfl,
      fun hne => absurd rfl hne, List.forall_mem_nil _⟩
  have hblank : (Except.ok Json.null : Except ShapeFault Json) =
      .ok (Outline.steps Outline.record.blank) := rfl
  have hpart := Record.part_of_readMembers (r := Outline.record) rfl (fun _ _ => rfl) hothers
    hblank h
  rw [Members.get?_ofList_of_nodup hkeys] at hpart
  exact (Except.ok.inj hpart).symm

/-! ## Reading objects -/

theorem read_outline (ms : Members) : Outline.record.read (.obj ms) =
    Outline.record.readMembers Outline.record.blank ms :=
  Record.read_obj (by simp [Outline.record, Member.text]) ms

theorem read_definition (ms : Members) : SiteDefinition.record.read (.obj ms) =
    SiteDefinition.record.readMembers SiteDefinition.record.blank ms :=
  Record.read_obj (by simp [SiteDefinition.record, Member.text, Member.list]) ms

theorem readSteps_eq_ok_iff {index : Nat} {xs : List Json} {ds : List StepDefinition} :
    readSteps index xs = .ok ds ↔ xs.mapM StepDefinition.read = .ok ds := by
  induction xs generalizing index ds with
  | nil => simp [readSteps, pure, Except.pure]
  | cons x xs ih =>
    rw [readSteps, List.mapM_cons]
    cases hx : StepDefinition.read x with
    | error e => simp [bind, Except.bind]
    | ok d =>
      simp only [bind, Except.bind, Except.map_eq_ok_iff, ih]
      cases xs.mapM StepDefinition.read <;> simp [pure, Except.pure]

/-! ## Loading -/

/-- An object with an array of steps that is read as a definition is loaded as that definition is
built. -/
theorem ofJson_eq_build_of_read {ms : Members} (hkeys : (ms.map Prod.fst).Nodup) {xs : List Json}
    (hxs : ms.get? "steps" = some (.arr xs)) (hd : SiteDefinition.record.read (.obj ms) = .ok d) :
    ofJson (.obj ms) = build d := by
  rw [read_definition] at hd
  have hagree := readMembers_agree agrees_blank (readStepList_of_readMembers hd)
  rw [hd] at hagree
  cases ho : Outline.record.readMembers Outline.record.blank ms with
  | error e =>
    rw [ho] at hagree
    cases hagree
  | ok o =>
    rw [ho] at hagree
    cases hagree with
    | ok h =>
      obtain ⟨hname, hurl, hcredentials, hlist⟩ := h
      have hsteps : o.steps = .arr xs := by
        rw [steps_of_readMembers hkeys ho, hxs]
        rfl
      have hread : readSteps 0 xs = .ok d.steps := by
        rw [readSteps_eq_ok_iff]
        rw [hsteps] at hlist
        exact hlist
      unfold ofJson definitionOfJson
      simp only [read_outline, ho, hsteps, hread]
      rw [hname, hurl, hcredentials]
      cases hheader : headerFault? d.name d.url d.credentials with
      | some fault => exact (buildWith_of_headerFault hheader).symm
      | none => rfl

/-- What is loaded has an array of steps, and each of them is read. -/
theorem exists_steps_of_ofJson {ms : Members} {s : Site} (h : ofJson (.obj ms) = .ok s) :
    ∃ o xs ds, Outline.record.readMembers Outline.record.blank ms = .ok o ∧ o.steps = .arr xs ∧
      xs.mapM StepDefinition.read = .ok ds := by
  obtain ⟨d, hd, -⟩ := Except.bind_eq_ok_iff.1 h
  simp only [definitionOfJson, read_outline] at hd
  split at hd
  · cases hd
  · next o ho =>
    split at hd
    · cases hd
    · split at hd
      · next xs hsteps =>
        obtain ⟨ds, hread, -⟩ := Except.map_eq_ok_iff.1 hd
        exact ⟨o, xs, ds, ho, hsteps, readSteps_eq_ok_iff.1 hread⟩
      · cases hd

theorem get?_steps_of_readMembers {ms : Members} (hkeys : (ms.map Prod.fst).Nodup) {xs : List Json}
    (ho : Outline.record.readMembers Outline.record.blank ms = .ok o) (hsteps : o.steps = .arr xs) :
    ms.get? "steps" = some (.arr xs) := by
  rw [steps_of_readMembers hkeys ho] at hsteps
  cases hms : ms.get? "steps" with
  | none =>
    rw [hms] at hsteps
    cases hsteps
  | some value =>
    rw [hms] at hsteps
    exact congrArg some hsteps

/-- A value that is loaded as a site is an object with an array of steps and is read as a
definition. -/
theorem exists_read_of_ofJson {x : Json} (hkeys : ∀ ms, x = .obj ms → (ms.map Prod.fst).Nodup)
    {s : Site} (h : ofJson x = .ok s) :
    ∃ (ms : Members) (xs : List Json) (d : SiteDefinition), x = .obj ms ∧
      ms.get? "steps" = some (.arr xs) ∧ SiteDefinition.record.read x = .ok d := by
  cases x with
  | obj ms =>
    obtain ⟨o, xs, ds, ho, hsteps, hread⟩ := exists_steps_of_ofJson h
    have hnodup := hkeys ms rfl
    have hget := get?_steps_of_readMembers hnodup ho hsteps
    have hlist : ∀ m ∈ ms, m.1 = "steps" → ∃ steps, readStepList m.2 = .ok steps := by
      intro m hm hkey
      have hvalue := Members.get?_of_mem hnodup hm
      rw [hkey, hget] at hvalue
      rw [← Option.some.inj hvalue]
      exact ⟨ds, hread⟩
    have hagree := readMembers_agree agrees_blank hlist
    rw [ho, ← read_definition] at hagree
    generalize hd : SiteDefinition.record.read (.obj ms) = outcome at hagree
    cases hagree with
    | ok _ => exact ⟨ms, xs, _, rfl, hget, rfl⟩
  | _ => cases h

/-- A value whose keys stand once is loaded as a site if and only if it is an object with an array
of steps, is read as a definition, and a site is built of that.  Whenever it is such an object and
read so, loading it has the outcome of building the definition, be it a site or a fault. -/
theorem ofJson_eq_build {x : Json} (hkeys : ∀ ms, x = .obj ms → (ms.map Prod.fst).Nodup) :
    (∀ s, ofJson x = .ok s ↔ ∃ ms xs d t, x = .obj ms ∧
        Members.get? ms "steps" = some (.arr xs) ∧ SiteDefinition.record.read x = .ok d ∧
          build d = .ok t ∧ (t == s) = true) ∧
      ∀ ms xs d, x = .obj ms → Members.get? ms "steps" = some (.arr xs) →
        SiteDefinition.record.read x = .ok d → ofJson x = build d := by
  have hsame : ∀ ms xs d, x = .obj ms → Members.get? ms "steps" = some (.arr xs) →
      SiteDefinition.record.read x = .ok d → ofJson x = build d := by
    rintro ms xs d rfl hxs hd
    exact ofJson_eq_build_of_read (hkeys ms rfl) hxs hd
  refine ⟨fun s => ⟨fun h => ?_, ?_⟩, hsame⟩
  · obtain ⟨ms, xs, d, hx, hxs, hd⟩ := exists_read_of_ofJson hkeys h
    rw [hsame ms xs d hx hxs hd] at h
    exact ⟨ms, xs, d, s, hx, hxs, hd, h, decide_eq_true rfl⟩
  · rintro ⟨ms, xs, d, t, hx, hxs, hd, ht, heq⟩
    rw [hsame ms xs d hx hxs hd, ht, definition_injective (of_decide_eq_true heq)]

/-- An object with a member that no site has, credentials as an array, and a step without a name
that comes second. -/
def loose : Members :=
  [("color", .str "red"), ("credentials", .arr [.str "ada", .str "secret"]), ("name", .str "shop"),
    ("steps", .arr [.obj [("key", .str "#open"), ("name", .str "open"), ("type", .str "click")],
      .obj [("name", .null), ("type", .str "hover")]]), ("url", .str "https://shop.example/")]

/-- The definition that is read from it. -/
def looseDefinition : SiteDefinition where
  name := "shop"
  url := "https://shop.example/"
  credentials := some ⟨some "ada", some "secret"⟩
  steps := [⟨"click", "open", [("key", .str "#open")]⟩, ⟨"hover", "", []⟩]

theorem ofJson_loose :
    (∀ ms, Json.obj loose = .obj ms → (ms.map Prod.fst).Nodup) ∧
      SiteDefinition.record.read (.obj loose) = .ok looseDefinition ∧
      ofJson (.obj loose) = build looseDefinition ∧
      build looseDefinition = .error (.required .stepName) := by
  have hkeys : ∀ ms, Json.obj loose = .obj ms → (ms.map Prod.fst).Nodup := by
    rintro ms ⟨⟩
    decide
  have hread : SiteDefinition.record.read (.obj loose) = .ok looseDefinition := by rfl
  refine ⟨hkeys, hread, ?_, by rfl⟩
  exact (ofJson_eq_build hkeys).2 _ _ _ rfl rfl hread

end SiteScript.Site
