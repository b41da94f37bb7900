import SiteScript.Proofs.Step.Edits
import SiteScript.Proofs.Step.Picking
import SiteScript.Proofs.Step.Verdict

/-!
# Picks before and after the check

A selector can be picked for a definition before it is checked, or for the definition of the checked
step.  Both ways lead to the same step (`Step.pick_of_check`), with one exception: a field without a
name is named after its key, which is the picked selector on the one way and the old key on the other.
Switching the container off can be done before or after the check as well.
-/

namespace SiteScript

open Json

/-! ## Fields -/

namespace ScrapeField

variable {ms : Members} {f : ScrapeField}

/-- A field whose key is replaced in its object. -/
theorem read_rekeyed (hms : ms.Sorted) (h : record.read (.obj ms) = .ok f) (key : String) :
    record.read (.obj (ms.insert "key" (.str key))) = .ok { f with key } := by
  have hkey : (Member.text "key" ScrapeField.key fun s f => { f with key := s }).read (.str key) =
      .ok fun f => { f with key } := rfl
  exact record_parts.read_insert (fun _ _ => Record.eq_of_parts_written recoverable)
    (.tail _ List.mem_cons_self) hkey rfl hms h

theorem text_of_read (hms : (ms.map Prod.fst).Nodup) (h : record.read (.obj ms) = .ok f) :
    orBlank "" asText ((ms.get? "name").getD .null) = .ok f.name ∧
      orBlank "" asText ((ms.get? "key").getD .null) = .ok f.key := by
  rw [record.read_obj record_parts.required] at h
  rw [← Members.get?_ofList_of_nodup hms, ← Members.get?_ofList_of_nodup hms]
  constructor
  · refine Record.part_of_readMembers rfl (fun _ _ => rfl) ?_ rfl h
    simp [record, Member.text, Member.keeps_optional]
  · refine Record.part_of_readMembers rfl (fun _ _ => rfl) ?_ rfl h
    simp [record, Member.text, Member.keeps_optional]

/-- A field with a name keeps it when its key is replaced. -/
theorem normalize_rekeyed (h : f.name ≠ "") (key : String) :
    normalize { f with key } = { f.normalize with key } := by
  simp [normalize, h]

/-- A field without a name is named after its key. -/
theorem normalize_nameless (h : f.name = "") (key : String) :
    normalize { f with key } = { f.normalize with key, name := key } ∧ f.normalize.name = f.key := by
  simp [normalize, h]

/-- A stored field whose key or name is replaced in its object. -/
theorem exists_json_eq (f : ScrapeField) : ∃ ms : Members, f.json = .obj ms ∧
    ms.get? "name" = some (.str f.name) ∧
      (∀ key, Json.obj (ms.insert "key" (.str key)) = json { f with key }) ∧
        ∀ name, Json.obj (ms.insert "name" (.str name)) = json { f with name } := by
  have hkey : ¬ "key" < "attribute" := by decide
  have hname : ¬ "name" < "attribute" ∧ ¬ "name" < "key" := by decide
  exact ⟨_, rfl, rfl, fun key => by simp [json, Members.insert, hkey],
    fun name => by simp [json, Members.insert, hname]⟩

end ScrapeField

/-- A text is empty if there is none, or if it is null or empty. -/
theorem Json.mem_blank_iff {x : Option Json} {s : String}
    (h : orBlank "" asText (x.getD .null) = .ok s) :
    x ∈ [none, some .null, some (.str "")] ↔ s = "" := by
  cases x with
  | none =>
    obtain rfl := Except.ok.inj h
    simp
  | some x =>
    rw [Option.getD_some] at h
    cases x with
    | null =>
      obtain rfl := Except.ok.inj h
      simp
    | str =>
      obtain rfl := Except.ok.inj h
      simp
    | bool | num | arr | obj => cases h

theorem Json.eq_str_of_ne_empty {x : Option Json} {s : String}
    (h : orBlank "" asText (x.getD .null) = .ok s) (hs : s ≠ "") : x = some (.str s) := by
  cases x with
  | none => exact absurd (Except.ok.inj h).symm hs
  | some x =>
    rw [Option.getD_some] at h
    cases x with
    | null => exact absurd (Except.ok.inj h).symm hs
    | str =>
      obtain rfl := Except.ok.inj h
      rfl
    | bool | num | arr | obj => cases h

/-! ## Definitions -/

namespace StepDefinition

/-- A field is an object with no name, or with one that is null or empty. -/
def Nameless (d : StepDefinition) (index : Nat) : Prop :=
  ∃ ms, fieldAt? (d.get? "fields") index = some ms ∧
    ms.get? "name" ∈ [none, some .null, some (.str "")]

/-- The definition `e` is `d`, but that the field at an index has the name `new` for `old`. -/
def Renamed (index : Nat) (old new : String) (d e : StepDefinition) : Prop :=
  ∃ (xs : List Json) (ms : Members), d.get? "fields" = some (.arr xs) ∧
    xs[index]? = some (.obj ms) ∧ ms.get? "name" = some (.str old) ∧
      e = d.set "fields" (.arr (xs.set index (.obj (ms.insert "name" (.str new)))))

/-- A pick is stored if the picker can be asked for its target. -/
theorem pick_of_request {d : StepDefinition} {target : PickTarget} {q : PickRequest}
    (h : d.request target = .ok q) (p : Pick) : d.pick target p = .ok (d.withPick target p) := by
  rw [pick, InPlace.after, run_storePick, h]

theorem withPick_of_field {d : StepDefinition} {xs : List Json} (hxs : d.get? "fields" = some (.arr xs))
    {index : Nat} {ms : Members} (hx : xs[index]? = some (.obj ms)) (p : Pick) :
    d.withPick (.field index) p =
      d.set "fields" (.arr (xs.set index (.obj (ms.insert "key" (.str p.selector))))) := by
  rw [withPick, hxs, Option.bind_some, rekey_eq hx]
  rfl

theorem setScoped_of_type {d : StepDefinition} (h : d.type = .ok .selector) (on : Bool) :
    d.setScoped on = .ok (d.withScoped on) := by
  rw [setScoped, InPlace.after, run_storeScoped, PickOperation.check, h]
  rfl

theorem hasTarget_container_iff {t : StepType} : hasTarget t .container = true ↔ t = .selector := by
  cases t <;> simp [hasTarget]

theorem hasTarget_field_iff {t : StepType} {index : Nat} :
    hasTarget t (.field index) = true ↔ t.isExtracting = true := by
  cases t <;> simp [hasTarget, StepType.isExtracting]

/-- A picker can be asked for a target that the type has, and for a field that is there. -/
theorem exists_request_iff {d : StepDefinition} {target : PickTarget} :
    (∃ q, d.request target = .ok q) ↔ ∃ t, d.type = .ok t ∧ hasTarget t target = true ∧
      ∀ index, target = .field index → ∃ ms, fieldAt? (d.get? "fields") index = some ms := by
  have hcheck : (∃ q, d.request target = .ok q) ↔ d.checkTarget target = .ok () := by
    rw [← outcome_request, Except.outcome, Except.map_eq_ok_iff]
    simp
  rw [hcheck, checkTarget, Except.bind_eq_ok_iff]
  refine exists_congr fun t => and_congr_right fun _ => ?_
  split_ifs with htarget
  · rw [and_iff_right htarget]
    cases target with
    | field index => simp [checkField, Option.isSome_iff_exists]
    | key | container => simp [checkField]
  · simp [htarget]

end StepDefinition

/-! ## Checked steps -/

namespace CheckedStep

/-- The definition of a checked step that is stored with another action. -/
def storing (v : CheckedStep) (a : Action) : StepDefinition :=
  ⟨v.type.tag, v.name, a.attributes⟩

theorem storing_of_stores {v : CheckedStep} {a : Action} (h : v.Stores a) :
    v.storing a = v.definition := by
  rw [storing, definition, h.attributes]

/-- A definition is accepted if its attributes are read and meet the requirements, and its normal form
is stored. -/
theorem exists_check_of_read {r : Registry} {d e : StepDefinition} {v : CheckedStep}
    (h : r.check d = .ok v) (hname : e.name = d.name) (htag : e.tag = d.tag) {raw : Action}
    (hread : Action.read v.type (.obj e.attributes) = .ok raw) (hmet : raw.unmet? = none) :
    ∃ u, r.check e = .ok u ∧ u.definition = v.storing raw.normalize := by
  obtain ⟨htype, hknown, hvname, -⟩ := Registry.check_cases h
  have hename : e.name = v.name := hname.trans hvname.symm
  have hetype : e.type = .ok v.type := by
    rw [← htype, StepDefinition.type, StepDefinition.type, htag]
  have hetag : e.tag ≠ "" := by
    rw [← StepDefinition.type_eq_ok_iff.1 hetype]
    exact v.type.tag_ne_empty
  have hnormal : raw.normalize.unmet? = none := raw.unmet?_normalize.trans hmet
  have hnamed : e.name ≠ "" := hename ▸ v.named
  refine ⟨⟨v.type, e.name, raw.normalize.attributes, hnamed⟩, ?_, ?_⟩
  · rw [Registry.check, dif_neg hnamed, if_neg hetag, hetype]
    simp only [bind, Except.bind, hknown, Kinds.settle_builtin, hread, hnormal]
  · simp only [definition, storing, hename]

end CheckedStep

/-- A pick for a key needs no more than a type that has one. -/
theorem Edits.of_hasTarget_key {t : StepType} (h : StepDefinition.hasTarget t .key = true)
    (key : String) : Edits t "key" (.str key) (.str key) (Action.withKey key) := by
  cases t with
  | click => exact .click_key key
  | select => exact .select_key key
  | formSelector => exact .formSelector_key key
  | form | scrape | selector => cases h

namespace CheckedStep

open StepDefinition (hasTarget)

/-! ## Stored fields -/

section

variable {v : CheckedStep} {a : Action} (h : v.Stores a) (ht : v.type.isExtracting = true)
  {index : Nat}
include h ht

/-- The fields are stored as they are in scripts. -/
theorem get?_fields :
    v.definition.get? "fields" = some (.arr (a.extracted.map ScrapeField.json)) := by
  rw [← storing_of_stores h]
  exact Action.get?_fields_attributes ht h.type

/-- A pick for a field of a stored step. -/
theorem withPick_field_definition {g : ScrapeField} (hg : a.extracted[index]? = some g) (p : Pick) :
    v.definition.withPick (.field index) p =
      v.storing (a.withExtracted (a.extracted.set index { g with key := p.selector })) := by
  obtain ⟨ms, hms, -, hkey, -⟩ := g.exists_json_eq
  have hget := get?_fields h ht
  have hfield : (a.extracted.map ScrapeField.json)[index]? = some (.obj ms) := by
    rw [List.getElem?_map, hg, Option.map_some, hms]
  have hread := Record.orBlank_asList ScrapeField.recoverable
    (a.extracted.set index { g with key := p.selector })
  rw [StepDefinition.withPick_of_field hget hfield, hkey, ← List.map_set, storing,
    ← (Edits.fields ht hread).stored h.type, ← storing_of_stores h]
  rfl

/-- A stored field that is renamed. -/
theorem renamed_storing {fs : List ScrapeField} {g : ScrapeField}
    (hg : fs[index]? = some g) (name : String) :
    StepDefinition.Renamed index g.name name (v.storing (a.withExtracted fs))
      (v.storing (a.withExtracted (fs.set index { g with name }))) := by
  obtain ⟨ms, hms, hname, -, hrename⟩ := g.exists_json_eq
  have htype : (a.withExtracted fs).type = v.type := (a.type_withExtracted fs).trans h.type
  have hextracted := Action.extracted_withExtracted (h.type.symm ▸ ht) fs
  have hget := Action.get?_fields_attributes ht htype
  rw [hextracted] at hget
  have hread := Record.orBlank_asList ScrapeField.recoverable (fs.set index { g with name })
  refine ⟨_, ms, hget, ?_, hname, ?_⟩
  · rw [List.getElem?_map, hg, Option.map_some, hms]
  · rw [hrename, ← List.map_set, storing, ← Action.withExtracted_withExtracted fs,
      ← (Edits.fields ht hread).stored htype]
    rfl

/-- The definition of a stored step can be picked a field that the step has. -/
theorem exists_request_field {g : ScrapeField} (hg : a.extracted[index]? = some g) :
    ∃ q, v.definition.request (.field index) = .ok q := by
  obtain ⟨ms, hms, -⟩ := g.exists_json_eq
  refine StepDefinition.exists_request_iff.2 ⟨v.type, StepDefinition.type_eq_ok_iff.2 rfl,
    StepDefinition.hasTarget_field_iff.2 ht, ?_⟩
  rintro _ ⟨⟩
  refine ⟨ms, StepDefinition.fieldAt?_eq_some_iff.2 ⟨_, get?_fields h ht, ?_⟩⟩
  rw [List.getElem?_map, hg, Option.map_some, hms]

end

/-! ## Definitions that make a step -/

section

variable {r : Registry} {d : StepDefinition} {v : CheckedStep} (h : r.check d = .ok v)
include h

/-- What is read from a definition that makes a step. -/
theorem exists_raw_of_check : ∃ raw, Action.read v.type (.obj d.attributes) = .ok raw ∧
    v.Stores raw.normalize ∧ raw.unmet? = none := by
  obtain ⟨-, -, -, raw, hread, hstores⟩ := Registry.check_cases h
  exact ⟨raw, hread, hstores, raw.unmet?_normalize.symm.trans hstores.settled.met⟩

variable (hsorted : d.attributes.Sorted)
include hsorted

theorem exists_check_unscoped (ht : v.type = .selector) :
    ∃ u, r.check (d.withScoped false) = .ok u ∧ u.definition = v.definition.withScoped false := by
  obtain ⟨raw, hread, hstores, hmet⟩ := exists_raw_of_check h
  have hscope : Edits v.type "scoped" _ _ _ := ht ▸ Edits.scope false
  have hcontainer : Edits v.type "container" _ _ _ := ht ▸ Edits.container ""
  obtain ⟨u, hu, hdefinition⟩ := exists_check_of_read (e := d.withScoped false) h rfl rfl
    (hcontainer.read (hsorted.insert _ _) (hscope.read hsorted hread))
    (Action.unmet?_withScope hmet)
  refine ⟨u, hu, ?_⟩
  rw [hdefinition, Action.normalize_withScope, storing,
    ← hcontainer.stored ((Action.type_withScope _ _).trans hstores.type),
    ← hscope.stored hstores.type, ← storing_of_stores hstores]
  rfl

variable {p : Pick} (hp : p.selector ≠ "")
include hp

theorem exists_check_key (ht : hasTarget v.type .key = true) :
    ∃ u, r.check (d.withPick .key p) = .ok u ∧ u.definition = v.definition.withPick .key p := by
  obtain ⟨raw, hread, hstores, hmet⟩ := exists_raw_of_check h
  have hedit := Edits.of_hasTarget_key ht p.selector
  obtain ⟨u, hu, hdefinition⟩ := exists_check_of_read (e := d.withPick .key p) h rfl rfl
    (hedit.read hsorted hread) (Action.unmet?_withKey hmet hp)
  refine ⟨u, hu, ?_⟩
  rw [hdefinition, Action.normalize_withKey, storing, ← hedit.stored hstores.type,
    ← storing_of_stores hstores]
  rfl

theorem exists_check_container (ht : v.type = .selector) :
    ∃ u, r.check (d.withPick .container p) = .ok u ∧
      u.definition = v.definition.withPick .container p := by
  obtain ⟨raw, hread, hstores, hmet⟩ := exists_raw_of_check h
  have hcontainer : Edits v.type "container" _ _ _ := ht ▸ Edits.container p.selector
  have hscope : Edits v.type "scoped" _ _ _ := ht ▸ Edits.scope true
  obtain ⟨u, hu, hdefinition⟩ := exists_check_of_read (e := d.withPick .container p) h rfl rfl
    (hscope.read (hsorted.insert _ _) (hcontainer.read hsorted hread))
    (Action.unmet?_withContainer hmet hp)
  refine ⟨u, hu, ?_⟩
  rw [hdefinition, Action.normalize_withContainer, storing,
    ← hscope.stored ((Action.type_withContainer _ _).trans hstores.type),
    ← hcontainer.stored hstores.type, ← storing_of_stores hstores]
  rfl

/-- A pick for another target than a field, before and after the check. -/
theorem pick_attribute_of_check {target : PickTarget} (ht : hasTarget v.type target = true)
    (hfield : ∀ index, target ≠ .field index) :
    ∃ q u, v.definition.request target = .ok q ∧ r.check (d.withPick target p) = .ok u ∧
      u.definition = v.definition.withPick target p := by
  obtain ⟨q, hq⟩ : ∃ q, v.definition.request target = .ok q :=
    StepDefinition.exists_request_iff.2 ⟨v.type, StepDefinition.type_eq_ok_iff.2 rfl, ht,
      fun index hindex => absurd hindex (hfield index)⟩
  cases target with
  | key =>
    obtain ⟨u, hu⟩ := exists_check_key h hsorted hp ht
    exact ⟨q, u, hq, hu⟩
  | container =>
    obtain ⟨u, hu⟩ := exists_check_container h hsorted hp
      (StepDefinition.hasTarget_container_iff.1 ht)
    exact ⟨q, u, hq, hu⟩
  | field index => exact absurd rfl (hfield index)

/-- A pick for a field of a definition that makes a step. -/
theorem exists_check_field (ht : v.type.isExtracting = true)
    {xs : List Json} (hxs : d.get? "fields" = some (.arr xs)) {index : Nat} {ms : Members}
    (hx : xs[index]? = some (.obj ms)) (hms : ms.Sorted) :
    ∃ a f u, v.Stores a ∧ ScrapeField.record.read (.obj ms) = .ok f ∧
      a.extracted[index]? = some f.normalize ∧ f.key ≠ "" ∧
        r.check (d.withPick (.field index) p) = .ok u ∧
          u.definition = v.storing (a.withExtracted (a.extracted.set index
            (ScrapeField.normalize { f with key := p.selector }))) := by
  obtain ⟨raw, hread, hstores, hmet⟩ := exists_raw_of_check h
  have hraw : raw.type.isExtracting = true := by rwa [Action.type_of_read hread]
  have hfields := Action.extracted_of_read ht hsorted.nodup hread
  rw [show d.attributes.get? "fields" = _ from hxs] at hfields
  have hitems : xs.mapM ScrapeField.record.read = .ok raw.extracted := hfields
  obtain ⟨f, hf, hfread⟩ := exists_getElem?_of_mapM hitems hx
  have hindex : index < xs.length := (List.getElem?_eq_some_iff.1 hx).1
  have hrekeyed : (xs.set index (.obj (ms.insert "key" (.str p.selector)))).mapM
      ScrapeField.record.read = .ok (raw.extracted.set index { f with key := p.selector }) := by
    rw [mapM_set hitems hindex, ScrapeField.read_rekeyed hms hfread]
    rfl
  have hedit : Edits v.type "fields" (.arr (xs.set index _)) _ _ := Edits.fields ht hrekeyed
  obtain ⟨hne, hkeys⟩ := Action.needsFields_eq_none_iff.1 (Action.needsFields_extracted hmet hraw)
  have hmet' : Action.needsFields ((raw.extracted.set index { f with key := p.selector }).map
      ScrapeField.key) = none := by
    rw [List.map_set]
    refine Action.needsFields_eq_none_iff.2 ⟨fun hnil => hne ((List.set_eq_nil_iff _ _).1 hnil), ?_⟩
    intro key hkey
    obtain hkey | rfl := List.mem_or_eq_of_mem_set hkey
    · exact hkeys key hkey
    · exact hp
  have hpick := StepDefinition.withPick_of_field hxs hx p
  obtain ⟨u, hu, hdefinition⟩ := exists_check_of_read (e := d.withPick (.field index) p) h
    (by rw [hpick]; rfl) (by rw [hpick]; rfl) (by rw [hpick]; exact hedit.read hsorted hread)
    (Action.unmet?_withExtracted hmet hmet')
  refine ⟨raw.normalize, f, u, hstores, hfread, ?_,
    hkeys _ (List.mem_map_of_mem (List.mem_of_getElem? hf)), hu, ?_⟩
  · rw [Action.extracted_normalize, List.getElem?_map, hf]
    rfl
  · rw [hdefinition, Action.normalize_withExtracted, List.map_set, Action.extracted_normalize]

/-- A pick for a field before and after the check: the same, but for the name of a nameless field. -/
theorem pick_field_of_check (ht : v.type.isExtracting = true)
    {xs : List Json} (hxs : d.get? "fields" = some (.arr xs)) {index : Nat} {ms : Members}
    (hx : xs[index]? = some (.obj ms)) (hms : ms.Sorted) :
    ∃ q u, v.definition.request (.field index) = .ok q ∧
      r.check (d.withPick (.field index) p) = .ok u ∧
        (¬ d.Nameless index → u.definition = v.definition.withPick (.field index) p) ∧
        (d.Nameless index → ∃ old, ms.get? "key" = some (.str old) ∧
          StepDefinition.Renamed index old p.selector (v.definition.withPick (.field index) p)
            u.definition) := by
  obtain ⟨a, f, u, hstores, hfread, hfield, hkey, hu, hdefinition⟩ :=
    exists_check_field h hsorted hp ht hxs hx hms
  obtain ⟨q, hq⟩ := exists_request_field hstores ht hfield
  obtain ⟨hnameText, hkeyText⟩ := ScrapeField.text_of_read hms.nodup hfread
  have hnameless : d.Nameless index ↔ f.name = "" := by
    rw [← mem_blank_iff hnameText, StepDefinition.Nameless,
      StepDefinition.fieldAt?_eq_some_iff.2 ⟨xs, hxs, hx⟩]
    simp
  refine ⟨q, u, hq, hu, ?_⟩
  rw [hnameless, hdefinition, withPick_field_definition hstores ht hfield p]
  refine ⟨fun hname => ?_, fun hname => ⟨f.key, eq_str_of_ne_empty hkeyText hkey, ?_⟩⟩
  · rw [ScrapeField.normalize_rekeyed hname]
  · obtain ⟨hnormal, hold⟩ := ScrapeField.normalize_nameless hname p.selector
    have hindex : index < a.extracted.length := (List.getElem?_eq_some_iff.1 hfield).1
    have hrenamed := renamed_storing hstores ht
      (List.getElem?_set_self (a := { f.normalize with key := p.selector }) hindex) p.selector
    rw [List.set_set] at hrenamed
    rw [hnormal, ← hold]
    exact hrenamed

end

end CheckedStep

namespace Step

open CheckedStep

/-- A definition that passes the check as `v` and is picked a selector for afterwards passes it again.
It is stored as the definition of `v` with the selector picked for it, but for the name of a field that
had none: it is the selector, and in the definition of `v` the old key.  A container that is no longer
used passes the check as well, and is stored as the definition of `v` without its container.  The
attributes are in normal form, as in any map whose keys rise. -/
theorem pick_of_check {r : Registry} {d : StepDefinition} {v : CheckedStep}
    (hd : (obj d.attributes).canonical = obj d.attributes) (h : r.check d = .ok v) :
    (∀ target q p, d.request target = .ok q → p.selector ≠ "" →
      ∃ q' e u n, v.definition.request target = .ok q' ∧ d.pick target p = .ok e ∧
        r.check e = .ok u ∧ v.definition.pick target p = .ok n ∧
          ((∀ index, target = .field index → ¬ d.Nameless index) → u.definition = n) ∧
          ∀ index, target = .field index → d.Nameless index → ∃ old,
            ((StepDefinition.fieldAt? (d.get? "fields") index).bind fun ms => ms.get? "key") =
              some (.str old) ∧
            StepDefinition.Renamed index old p.selector n u.definition) ∧
      (d.type = .ok .selector → ∃ e u, d.setScoped false = .ok e ∧ r.check e = .ok u ∧
        v.definition.setScoped false = .ok u.definition) := by
  have hsorted : d.attributes.Sorted := sorted_of_canonical hd
  have htype : d.type = .ok v.type := (Registry.check_cases h).1
  refine ⟨fun target q p hq hp => ?_, fun ht => ?_⟩
  · obtain ⟨t, ht, htarget, hfield⟩ := StepDefinition.exists_request_iff.1 ⟨q, hq⟩
    obtain rfl : v.type = t := Except.ok.inj (htype.symm.trans ht)
    cases target with
    | key | container =>
      obtain ⟨q', u, hq', hu, hdefinition⟩ := pick_attribute_of_check h hsorted hp htarget (by simp)
      exact ⟨q', _, u, _, hq', StepDefinition.pick_of_request hq p, hu,
        StepDefinition.pick_of_request hq' p, fun _ => hdefinition, by rintro _ ⟨⟩⟩
    | field index =>
      obtain ⟨ms, hms⟩ := hfield index rfl
      obtain ⟨xs, hxs, hx⟩ := StepDefinition.fieldAt?_eq_some_iff.1 hms
      have hcanonical := canonical_of_mem (canonical_of_get? hd hxs) (List.mem_of_getElem? hx)
      obtain ⟨q', u, hq', hu, hnamed, hnameless⟩ := pick_field_of_check h hsorted hp
        (StepDefinition.hasTarget_field_iff.1 htarget) hxs hx (sorted_of_canonical hcanonical)
      refine ⟨q', _, u, _, hq', StepDefinition.pick_of_request hq p, hu,
        StepDefinition.pick_of_request hq' p, fun hnot => hnamed (hnot index rfl), ?_⟩
      rintro _ ⟨⟩ hindex
      rw [hms]
      exact hnameless hindex
  · have hselector : v.type = .selector := Except.ok.inj (htype.symm.trans ht)
    obtain ⟨u, hu, hdefinition⟩ := exists_check_unscoped h hsorted hselector
    refine ⟨_, u, StepDefinition.setScoped_of_type ht false, hu, ?_⟩
    rw [hdefinition]
    exact StepDefinition.setScoped_of_type (StepDefinition.type_eq_ok_iff.2 (hselector ▸ rfl)) false

/-- A definition with a field that has no name, and with one that has a name. -/
def cardsDefinition : StepDefinition :=
  ⟨"selector", "cards", [("container", .str ".card"),
    ("fields", .arr [.obj [("key", .str "a"), ("name", .null)],
      .obj [("key", .str "b"), ("name", .str "title"), ("unit", .str "px")]])]⟩

/-- What the check answers. -/
def cards : CheckedStep :=
  ⟨.selector, "cards", [("container", .str ".card"),
    ("fields", .arr [.obj [("attribute", .str "text"), ("key", .str "a"), ("name", .str "a")],
      .obj [("attribute", .str "text"), ("key", .str "b"), ("name", .str "title")]]),
    ("scoped", .bool true)], by decide⟩

theorem pick_of_check_cards :
    (obj cardsDefinition.attributes).canonical = obj cardsDefinition.attributes ∧
      Registry.full.check cardsDefinition = .ok cards ∧
      (∃ q, cardsDefinition.request (.field 0) = .ok q) ∧
      (∃ q, cardsDefinition.request (.field 1) = .ok q) ∧
      (∃ e u n, cardsDefinition.pick (.field 0) ⟨"h2"⟩ = .ok e ∧ Registry.full.check e = .ok u ∧
        cards.definition.pick (.field 0) ⟨"h2"⟩ = .ok n ∧
          StepDefinition.Renamed 0 "a" "h2" n u.definition) ∧
      (∃ e u, cardsDefinition.pick (.field 1) ⟨"h2"⟩ = .ok e ∧ Registry.full.check e = .ok u ∧
        cards.definition.pick (.field 1) ⟨"h2"⟩ = .ok u.definition) ∧
      ∃ e u, cardsDefinition.setScoped false = .ok e ∧ Registry.full.check e = .ok u ∧
        cards.definition.setScoped false = .ok u.definition := by
  have hcanonical : (obj cardsDefinition.attributes).canonical = obj cardsDefinition.attributes := by
    rfl
  have hcheck : Registry.full.check cardsDefinition = .ok cards := by rfl
  have hfirst : cardsDefinition.request (.field 0) = .ok ⟨".card", "*"⟩ := by rfl
  have hsecond : cardsDefinition.request (.field 1) = .ok ⟨".card", "*"⟩ := by rfl
  have hnameless : cardsDefinition.Nameless 0 :=
    ⟨[("key", .str "a"), ("name", .null)], rfl, .tail _ List.mem_cons_self⟩
  have hnamed : ¬ cardsDefinition.Nameless 1 := by
    rintro ⟨ms, hms, hname⟩
    obtain rfl : [("key", .str "b"), ("name", .str "title"), ("unit", .str "px")] = ms :=
      Option.some.inj hms
    have htitle : some (str "title") ∈ [none, some null, some (str "")] := hname
    simp at htitle
  obtain ⟨hpick, hscope⟩ := pick_of_check hcanonical hcheck
  refine ⟨hcanonical, hcheck, ⟨_, hfirst⟩, ⟨_, hsecond⟩, ?_, ?_, hscope rfl⟩
  · obtain ⟨-, e, u, n, -, he, hu, hn, -, hrenamed⟩ := hpick (.field 0) _ ⟨"h2"⟩ hfirst (by decide)
    obtain ⟨old, hold, hdefinition⟩ := hrenamed 0 rfl hnameless
    obtain rfl : "a" = old := Json.str.inj (Option.some.inj hold)
    exact ⟨e, u, n, he, hu, hn, hdefinition⟩
  · obtain ⟨-, e, u, n, -, he, hu, hn, hsame, -⟩ := hpick (.field 1) _ ⟨"h2"⟩ hsecond (by decide)
    have hdefinition : u.definition = n := hsame fun index hindex => by
      cases hindex
      exact hnamed
    exact ⟨e, u, he, hu, hn.trans (congrArg _ hdefinition.symm)⟩

end Step

end SiteScript
