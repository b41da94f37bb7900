import SiteScript.Proofs.Json.Rereading
import SiteScript.Proofs.Site.Reload
import SiteScript.Proofs.Site.Traversal
import SiteScript.Step.Picking

/-!
# Exchanging data as JSON

Whatever form data are read from, from an object with members missing or null, or from an array, what is
written of them is read as the same data (`exchange`).  A step definition keeps the members of its object
that are neither its type nor its name, and has these two written beside them
(`StepDefinition.carries_of_read`); therefore it is read back although it can hold any attributes, and so
is a site definition with its steps.
-/

namespace SiteScript

/-! ## Plain data -/

theorem ParamDescriptor.recoverable (p : ParamDescriptor) : record.Recoverable p where
  nodup := by decide
  restores := by simp [record, Member.requiredText, Json.canonical, Json.asText, Except.map]
  omits := by simp [record, Member.requiredText]
  ext := by
    cases p
    rintro ⟨⟩
    simp +contextual [record, Member.requiredText]

theorem PickRequest.recoverable (r : PickRequest) : record.Recoverable r where
  nodup := by decide
  restores := by simp [record, Member.requiredText, Json.canonical, Json.asText, Except.map]
  omits := by simp [record, Member.requiredText]
  ext := by
    cases r
    rintro ⟨⟩
    simp +contextual [record, Member.requiredText]

theorem Pick.recoverable (p : Pick) : record.Recoverable p where
  nodup := by decide
  restores := by simp [record, Member.requiredText, Json.canonical, Json.asText, Except.map]
  omits := by simp [record, Member.requiredText]
  ext := by
    cases p
    rintro ⟨⟩
    simp +contextual [record, Member.requiredText]

theorem StepType.read_write (t : StepType) : read t.write.canonical = .ok t := by
  rw [write, Json.canonical, read, readTag, ofTag?_tag]

theorem IndentWidth.read_write (w : IndentWidth) : read w.write.canonical = .ok w := by
  cases w <;> rw [write, Json.canonical] <;> rfl

theorem IndentWidth.write_injective : Function.Injective write :=
  Except.injective_of_ok (g := fun v => read v.canonical) read_write

theorem CompileOptions.recoverable (o : CompileOptions) : record.Recoverable o where
  nodup := by decide
  restores := by simp [record, IndentWidth.read_write, Except.map]
  omits := by simp [record]
  ext := by
    cases o
    rintro ⟨⟩
    simp +contextual [record, IndentWidth.write_injective.eq_iff]

/-! ## Step definitions -/

namespace StepDefinition

variable {ms : Members} {d : StepDefinition}

/-- What a step definition takes from an object, and what is written of it. -/
structure Carries (ms : Members) (d : StepDefinition) : Prop where
  /-- No attribute could be taken for the type or the name. -/
  untyped : d.attributes.get? "type" = none
  unnamed : d.attributes.get? "name" = none
  /-- Every other member is kept as it is. -/
  kept : d.attributes = ms.filter fun m => m.1 ≠ "type" && m.1 ≠ "name"
  get?_kept : ∀ key, key ≠ "type" → key ≠ "name" → d.attributes.get? key = ms.get? key
  /-- Only the type and the name of the object are written anew. -/
  written : d.write.canonical =
    .obj ((ms.insert "name" (.str d.name)).insert "type" (.str d.tag))

theorem attributes_of_read (h : read (.obj ms) = .ok d) :
    d.attributes = ms.filter fun m => isAttribute m.1 := by
  obtain ⟨name, -, h⟩ := Except.bind_eq_ok_iff.1 h
  obtain ⟨tag, -, h⟩ := Except.bind_eq_ok_iff.1 h
  cases h
  rfl

/-- What is read of a value in normal form is ordered. -/
theorem ordered_of_read {v : Json} (hv : v.canonical = v) (h : read v = .ok d) : d.Ordered := by
  cases v with
  | obj ms =>
    have hattributes := attributes_of_read h
    refine ⟨?_, fun m hm => ?_, fun m hm => ?_⟩
    · rw [hattributes]
      exact (Json.sorted_of_canonical hv).filter _
    · rw [hattributes] at hm
      exact (List.mem_filter.1 hm).2
    · rw [hattributes] at hm
      exact Json.canonical_of_mem_obj hv (List.mem_filter.1 hm).1
  | _ => cases h

theorem carries_of_read (hms : (Json.obj ms).canonical = .obj ms) (h : read (.obj ms) = .ok d) :
    Carries ms d := by
  have hordered := ordered_of_read hms h
  have hattributes := attributes_of_read h
  have hget (key : String) (htype : key ≠ "type") (hname : key ≠ "name") :
      d.attributes.get? key = ms.get? key := by
    rw [hattributes, Members.get?_filter, if_pos (by simp [isAttribute, htype, hname])]
  have hsorted := Json.sorted_of_canonical hms
  refine ⟨hordered.get?_eq_none (by decide), hordered.get?_eq_none (by decide), hattributes,
    hget, ?_⟩
  rw [hordered.canonical_write, Json.obj.injEq]
  apply Members.Sorted.ext ((hordered.sorted.insert ..).insert ..) ((hsorted.insert ..).insert ..)
  intro key
  simp only [Members.get?_insert]
  split_ifs with htype hname
  · rfl
  · rfl
  · exact hget key htype hname

theorem write_injective : Function.Injective write := by
  rintro ⟨tag, name, attributes⟩ ⟨tag', name', attributes'⟩ h
  simpa [write] using h

end StepDefinition

/-! ## Site definitions -/

namespace SiteDefinition

/-- A site definition is recoverable if its steps are ordered. -/
theorem recoverable {d : SiteDefinition} (h : ∀ s ∈ d.steps, s.Ordered) :
    record.Recoverable d where
  nodup := by decide
  restores := by
    have hsteps := Json.orBlank_asList fun s hs => (h s hs).read_canonical
    obtain ⟨name, url, _ | credentials, steps⟩ := d
    · simp [record, Member.text, Member.list, Except.map, hsteps]
    · simp [record, Member.text, Member.list, Except.map, hsteps]
  omits := by simp [record, Member.text, Member.list]
  ext := by
    cases d
    rintro ⟨⟩
    simp +contextual [record, Member.text, Member.list, Credentials.map_write_inj,
      (List.map_injective_iff.2 StepDefinition.write_injective).eq_iff]

theorem ordered_of_readSteps {v : Json} (hv : v.canonical = v) {steps : List StepDefinition}
    (h : Json.orBlank [] (Json.asList StepDefinition.read) v = .ok steps) :
    ∀ s ∈ steps, s.Ordered := by
  cases v with
  | null =>
    cases h
    exact List.forall_mem_nil _
  | arr xs =>
    intro s hs
    obtain ⟨x, hx, hread⟩ := Except.exists_of_mem_mapM h hs
    exact StepDefinition.ordered_of_read (Json.canonical_of_mem hv hx) hread
  | _ => cases h

/-- The steps of a site definition that is read of a value in normal form are ordered. -/
theorem ordered_of_read {v : Json} (hv : v.canonical = v) {d : SiteDefinition}
    (h : record.read v = .ok d) : ∀ s ∈ d.steps, s.Ordered := by
  have hother {m : Member SiteDefinition} (hm : m.Keeps steps) (v : Json)
      (f : SiteDefinition → SiteDefinition) (_ : v.canonical = v) (hf : m.read v = .ok f)
      (x : SiteDefinition) (hx : ∀ s ∈ x.steps, s.Ordered) : ∀ s ∈ (f x).steps, s.Ordered := by
    rwa [hm v f hf x]
  refine Record.holds_of_read (P := fun d => ∀ s ∈ d.steps, s.Ordered) (List.forall_mem_nil _) ?_ hv h
  simp only [record, List.forall_mem_cons]
  refine ⟨hother (Member.keeps_optional _ _ _ _ _ fun _ _ => rfl),
    hother (Member.keeps_optional _ _ _ _ _ fun _ _ => rfl),
    hother (Member.keeps_optional _ _ _ _ _ fun _ _ => rfl), ?_, List.forall_mem_nil _⟩
  rintro v f hv hf x -
  obtain ⟨steps, hsteps, rfl⟩ := Except.map_eq_ok_iff.1 hf
  exact ordered_of_readSteps hv hsteps

end SiteDefinition

/-! ## All data -/

/-- What is written of data of any type is read as these data. -/
structure Exchange : Prop where
  siteDefinition : Json.Rereads SiteDefinition.record.read SiteDefinition.record.write
  credentials : Json.Rereads Credentials.record.read Credentials.record.write
  stepDefinition : Json.Rereads StepDefinition.read StepDefinition.write
  formField : Json.Rereads FormField.record.read FormField.record.write
  scrapeField : Json.Rereads ScrapeField.record.read ScrapeField.record.write
  paramDescriptor : Json.Rereads ParamDescriptor.record.read ParamDescriptor.record.write
  pickRequest : Json.Rereads PickRequest.record.read PickRequest.record.write
  pick : Json.Rereads Pick.record.read Pick.record.write
  click : Json.Rereads Click.record.read Click.record.write
  select : Json.Rereads Select.record.read Select.record.write
  form : Json.Rereads Form.record.read Form.record.write
  formSelector : Json.Rereads FormSelector.record.read FormSelector.record.write
  scrape : Json.Rereads Scrape.record.read Scrape.record.write
  selector : Json.Rereads Selector.record.read Selector.record.write
  stepType : Json.Rereads StepType.read StepType.write
  indentWidth : Json.Rereads IndentWidth.read IndentWidth.write
  compileOptions : Json.Rereads CompileOptions.record.read CompileOptions.record.write
  /-- A step definition takes over the members of its object, none of them in place of another. -/
  attributes : ∀ (ms : Members) (d : StepDefinition), (Json.obj ms).canonical = .obj ms →
    StepDefinition.read (.obj ms) = .ok d → StepDefinition.Carries ms d

theorem exchange : Exchange where
  siteDefinition := Record.rereads_of_read fun _ _ hv hd =>
    SiteDefinition.recoverable (SiteDefinition.ordered_of_read hv hd)
  credentials := Record.rereads Credentials.recoverable
  stepDefinition := Json.rereads_of fun _ _ hv hd =>
    (StepDefinition.ordered_of_read hv hd).read_canonical
  formField := Record.rereads FormField.recoverable
  scrapeField := Record.rereads ScrapeField.recoverable
  paramDescriptor := Record.rereads ParamDescriptor.recoverable
  pickRequest := Record.rereads PickRequest.recoverable
  pick := Record.rereads Pick.recoverable
  click := Record.rereads Click.recoverable
  select := Record.rereads Select.recoverable
  form := Record.rereads Form.recoverable
  formSelector := Record.rereads FormSelector.recoverable
  scrape := Record.rereads Scrape.recoverable
  selector := Record.rereads Selector.recoverable
  stepType := Json.rereads_of fun _ t _ _ => t.read_write
  indentWidth := Json.rereads_of fun _ w _ _ => w.read_write
  compileOptions := Record.rereads CompileOptions.recoverable
  attributes := fun _ _ hms hd => StepDefinition.carries_of_read hms hd

/-- A site definition as an array: no address, half a login, and a step of a type that nobody knows. -/
def SiteDefinition.positional : Json :=
  .arr [.str "shop", .null, .arr [.null, .str "secret"],
    .arr [.obj [("name", .null), ("type", .str "hover"), ("zoom", .num (.int 2))]]]

/-- The definition that is read from it. -/
def SiteDefinition.ofPositional : SiteDefinition where
  name := "shop"
  credentials := some ⟨none, some "secret"⟩
  steps := [⟨"hover", "", [("zoom", .num (.int 2))]⟩]

theorem exchange_positional :
    SiteDefinition.record.read SiteDefinition.positional = .ok SiteDefinition.ofPositional ∧
      SiteDefinition.record.read
        (SiteDefinition.record.write SiteDefinition.ofPositional).canonical =
          .ok SiteDefinition.ofPositional := by
  have hread : SiteDefinition.record.read SiteDefinition.positional =
      .ok SiteDefinition.ofPositional := by rfl
  obtain ⟨_, hback, rfl, -⟩ := exchange.siteDefinition _ _ (by decide) hread
  exact ⟨hread, hback⟩

end SiteScript
