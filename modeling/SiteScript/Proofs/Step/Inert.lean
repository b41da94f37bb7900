import SiteScript.Proofs.Json.Inert
import SiteScript.Proofs.Step.Parts
import SiteScript.Proofs.Step.Verdict

/-!
# Attributes that do not count

Step definitions are answered alike if they differ only in attributes that the type does not declare
and in attributes that are null (`Registry.create_agree`).  In the fields of a step the same members do
not count.  Only the flag of a form must not be null: an absent one means that the form is submitted, but
null is not a boolean.
-/

namespace SiteScript

open Json

/-! ## Fields -/

/-- The same field, or objects that differ only in members that a field does not declare or that are
null. -/
def Json.FieldsAgree (names : List String) : Json → Json → Prop :=
  ObjectsAgree (Spare names []) fun _ v w => v = w

theorem FormField.read_agree {x y : Json} (h : FieldsAgree names x y) :
    record.read x = record.read y := by
  have hnull : record.NullIsAbsent record.written [] := by
    simp only [Record.NullIsAbsent, record, List.forall_mem_cons]
    exact ⟨fun _ => rfl, fun _ => rfl, List.forall_mem_nil _⟩
  exact hnull.read_eq record_parts recoverable rfl h

/-- The field with the text for an empty attribute. -/
def ScrapeField.filled (f : ScrapeField) : ScrapeField :=
  { f with extract := if f.extract = "" then "text" else f.extract }

theorem ScrapeField.normalize_eq (f : ScrapeField) :
    f.normalize =
      { f.filled with name := if f.filled.name = "" then f.filled.key else f.filled.name } := rfl

theorem ScrapeField.filled_parts : record.Parts fun name f => record.written name f.filled where
  required := by simp [record, Member.text]
  sets := by simp [record, Member.text, Record.written, Except.map_eq_ok_iff, filled]

/-- A null attribute is read as an empty one, and so it is the text in normal form, as an absent one
is. -/
theorem ScrapeField.read_agree {x y : Json} (h : FieldsAgree names x y) :
    (record.read x).map normalize = (record.read y).map normalize := by
  have hnull : record.NullIsAbsent (fun name f => record.written name f.filled) [] := by
    simp only [Record.NullIsAbsent, record, List.forall_mem_cons]
    exact ⟨fun _ => rfl, fun _ => rfl, fun _ => rfl, List.forall_mem_nil _⟩
  refine hnull.read_agree normalize filled_parts (by simp [record, names, Member.text])
    (by rintro key v w rfl; rfl) (fun f g hfg => ?_) h
  have hfilled : f.filled = g.filled := Record.eq_of_parts_written recoverable hfg
  rw [normalize_eq, normalize_eq, hfilled]

/-! ## Attributes -/

namespace StepType

/-- The attributes of a type that must not be null. -/
def strict : StepType → List String
  | form | formSelector => ["submit"]
  | click | select | scrape | selector => []

/-- The same value, or lists of fields that agree. -/
inductive Alike (t : StepType) : String → Json → Json → Prop
  | same (key : String) (v : Json) : Alike t key v v
  | fields {names : List String} {v w : Json} (fieldNames : t.fieldNames? = some names)
    (items : ArraysAgree (FieldsAgree names) v w) : Alike t "fields" v w

end StepType

theorem Click.nullIsAbsent : record.NullIsAbsent record.written StepType.click.strict := by
  simp only [Record.NullIsAbsent, record, List.forall_mem_cons]
  exact ⟨fun _ => rfl, List.forall_mem_nil _⟩

theorem Select.nullIsAbsent : record.NullIsAbsent record.written StepType.select.strict := by
  simp only [Record.NullIsAbsent, record, List.forall_mem_cons]
  exact ⟨fun _ => rfl, fun _ => rfl, List.forall_mem_nil _⟩

theorem Form.nullIsAbsent : record.NullIsAbsent record.written StepType.form.strict := by
  simp only [Record.NullIsAbsent, record, List.forall_mem_cons]
  exact ⟨fun _ => rfl, fun h => absurd (by decide) h, List.forall_mem_nil _⟩

theorem FormSelector.nullIsAbsent :
    record.NullIsAbsent record.written StepType.formSelector.strict := by
  simp only [Record.NullIsAbsent, record, List.forall_mem_cons]
  exact ⟨fun _ => rfl, fun _ => rfl, fun h => absurd (by decide) h, List.forall_mem_nil _⟩

/-- The attributes with normal fields. -/
def Scrape.filled (a : Scrape) : Scrape :=
  { a with fields := a.fields.map ScrapeField.normalize }

theorem Scrape.filled_parts : record.Parts fun name a => record.written name a.filled where
  required := by simp [record, Member.list]
  sets := by simp [record, Member.list, Record.written, Except.map_eq_ok_iff, filled]

theorem Scrape.nullIsAbsent :
    record.NullIsAbsent (fun name a => record.written name a.filled) StepType.scrape.strict := by
  simp only [Record.NullIsAbsent, record, List.forall_mem_cons]
  exact ⟨fun _ => rfl, List.forall_mem_nil _⟩

/-- The attributes with normal fields. -/
def Selector.filled (a : Selector) : Selector :=
  { a with fields := a.fields.map ScrapeField.normalize }

theorem Selector.filled_parts : record.Parts fun name a => record.written name a.filled where
  required := by simp [record, Member.text, Member.list]
  sets := by simp [record, Member.text, Member.list, Record.written, Except.map_eq_ok_iff, filled]

theorem Selector.nullIsAbsent :
    record.NullIsAbsent (fun name a => record.written name a.filled) StepType.selector.strict := by
  simp only [Record.NullIsAbsent, record, List.forall_mem_cons]
  exact ⟨fun _ => rfl, fun _ => rfl, fun _ => rfl, List.forall_mem_nil _⟩

theorem Selector.normalize_eq (a : Selector) : a.normalize =
    { a.filled with
      scope := some a.filled.isScoped
      container := if a.filled.isScoped then a.filled.container else "" } := rfl

/-- Attributes that agree are read alike, up to a view of them, if fields that agree are. -/
theorem Record.NullIsAbsent.read_attributes {α γ δ : Type} {r : Record α} {part : String → α → γ}
    {t : StepType} (hnull : r.NullIsAbsent part t.strict) (view : α → δ) (h : r.Parts part)
    (hdeclares : r.Declares t.shapes)
    (hfields : ∀ names, t.fieldNames? = some names → ∀ v w, ArraysAgree (FieldsAgree names) v w →
      r.partRead part "fields" v = r.partRead part "fields" w)
    (hview : ∀ a b, r.parts part a = r.parts part b → view a = view b) {x y : Json}
    (hxy : ObjectsAgree (Spare t.declared t.strict) t.Alike x y) :
    (r.read x).map view = (r.read y).map view := by
  refine hnull.read_agree view h (fun m hm => ?_) (fun key v w hvw => ?_) hview hxy
  · rw [StepType.declared, ← hdeclares.names]
    exact List.mem_map_of_mem hm
  · cases hvw with
    | same => rfl
    | fields fieldNames items => exact hfields _ fieldNames v w items

theorem Record.NullIsAbsent.read_attributes_eq {α : Type} {r : Record α} {t : StepType}
    (hnull : r.NullIsAbsent r.written t.strict) (h : r.Parts r.written)
    (hdeclares : r.Declares t.shapes) (hrecoverable : ∀ a, r.Recoverable a)
    (hfields : ∀ names, t.fieldNames? = some names → ∀ v w, ArraysAgree (FieldsAgree names) v w →
      r.partRead r.written "fields" v = r.partRead r.written "fields" w)
    {x y : Json} (hxy : ObjectsAgree (Spare t.declared t.strict) t.Alike x y) :
    r.read x = r.read y := by
  have hread := hnull.read_attributes id h hdeclares hfields
    (fun a b => eq_of_parts_written hrecoverable) hxy
  rwa [Except.map_id] at hread

/-- Lists of form fields that agree are read as the same list. -/
theorem Record.partRead_formFields {α γ : Type} {r : Record α} {part : String → α → γ}
    {get : α → List FormField} {set : List FormField → α → α}
    (hmember : (r.members.find? fun m => m.name = "fields") =
      some (.list "fields" FormField.record.read FormField.record.write get set)) {v w : Json}
    (hvw : ArraysAgree (FieldsAgree FormField.names) v w) :
    r.partRead part "fields" v = r.partRead part "fields" w := by
  refine partRead_list hmember id (fun x y hxy => ?_) (fun as bs h => ?_) hvw
  · rw [FormField.read_agree hxy]
  · rw [List.map_id, List.map_id] at h
    rw [h]

/-- Lists of scrape fields that agree are read as lists of the same normal fields. -/
theorem Record.partRead_scrapeFields {α γ : Type} {r : Record α} {part : String → α → γ}
    {get : α → List ScrapeField} {set : List ScrapeField → α → α}
    (hmember : (r.members.find? fun m => m.name = "fields") =
      some (.list "fields" ScrapeField.record.read ScrapeField.record.write get set))
    (hpart : ∀ fs gs : List ScrapeField, fs.map ScrapeField.normalize = gs.map ScrapeField.normalize →
      part "fields" (set fs r.blank) = part "fields" (set gs r.blank)) {v w : Json}
    (hvw : ArraysAgree (FieldsAgree ScrapeField.names) v w) :
    r.partRead part "fields" v = r.partRead part "fields" w :=
  partRead_list hmember ScrapeField.normalize (fun _ _ hxy => ScrapeField.read_agree hxy) hpart hvw

namespace Action

variable {x y : Json}

/-- Attributes that agree are read alike, up to normal forms. -/
theorem read_agree (t : StepType) (h : ObjectsAgree (Spare t.declared t.strict) t.Alike x y) :
    (read t x).map normalize = (read t y).map normalize := by
  cases t with
  | click =>
    rw [read, read, Click.nullIsAbsent.read_attributes_eq Click.record_parts Click.declares
      Click.recoverable (by rintro _ ⟨⟩) h]
  | select =>
    rw [read, read, Select.nullIsAbsent.read_attributes_eq Select.record_parts Select.declares
      Select.recoverable (by rintro _ ⟨⟩) h]
  | form =>
    rw [read, read, Form.nullIsAbsent.read_attributes_eq Form.record_parts Form.declares Form.recoverable
      ?_ h]
    rintro names ⟨⟩ v w hvw
    exact Record.partRead_formFields rfl hvw
  | formSelector =>
    rw [read, read, FormSelector.nullIsAbsent.read_attributes_eq FormSelector.record_parts
      FormSelector.declares FormSelector.recoverable ?_ h]
    rintro names ⟨⟩ v w hvw
    exact Record.partRead_formFields rfl hvw
  | scrape =>
    have hfilled := Scrape.nullIsAbsent.read_attributes Scrape.filled Scrape.filled_parts
      Scrape.declares ?_ (fun a b => Record.eq_of_parts_written Scrape.recoverable) h
    · exact Except.map_map_congr hfilled fun a b hab => congrArg scrape hab
    · rintro names ⟨⟩ v w hvw
      exact Record.partRead_scrapeFields rfl
        (fun fs gs hfs => congrArg (fun fs => Scrape.record.written "fields" ⟨fs⟩) hfs) hvw
  | selector =>
    have hfilled := Selector.nullIsAbsent.read_attributes Selector.filled Selector.filled_parts
      Selector.declares ?_ (fun a b => Record.eq_of_parts_written Selector.recoverable) h
    · exact Except.map_map_congr hfilled fun a b hab => by
        rw [normalize, normalize, Selector.normalize_eq, Selector.normalize_eq, hab]
    · rintro names ⟨⟩ v w hvw
      exact Record.partRead_scrapeFields rfl
        (fun fs gs hfs => congrArg (fun fs => Selector.record.written "fields" ⟨none, "", fs⟩) hfs) hvw

end Action

/-! ## Step definitions -/

/-- The type of the step that an object holds. -/
def Json.stepType? : Json → Option StepType
  | obj ms => ((Members.get? ms "type").bind text?).bind StepType.ofTag?
  | _ => none

namespace StepDefinition

/-- The members of a step of a type, or of none. -/
def declared (t : Option StepType) : List String :=
  "type" :: "name" :: t.elim [] StepType.declared

/-- The members of a step that must not be null. -/
def strict (t : Option StepType) : List String :=
  t.elim [] StepType.strict

/-- The same value, or lists of fields that agree. -/
def Alike (t : Option StepType) (key : String) (v w : Json) : Prop :=
  v = w ∨ ∃ u ∈ t, u.Alike key v w

end StepDefinition

/-- The same step, or objects that differ only in members that a step of the type does not declare or
that are null, and so in its fields. -/
def Json.StepsAgree (x y : Json) : Prop :=
  ObjectsAgree (Spare (StepDefinition.declared x.stepType?) (StepDefinition.strict x.stepType?))
    (StepDefinition.Alike x.stepType?) x y

namespace StepDefinition

variable {ms ns : Members} (left : (ms.map Prod.fst).Nodup) (right : (ns.map Prod.fst).Nodup)
include left right

/-- Steps that agree have the same type and the same name. -/
theorem readText_agree {t : Option StepType}
    (h : Members.Agree (Spare (declared t) (strict t)) (Alike t) ms ns) {key : String}
    (hkey : key ∈ ["type", "name"]) : readText ms key = readText ns key := by
  unfold readText
  rw [h.getD_get? left right (fun v hv => ?_) fun v w hvw => ?_]
  · exact (hv.resolve_left fun hnot => hnot (List.mem_append_left _ hkey)).1
  · obtain rfl | ⟨u, -, hu⟩ := hvw
    · rfl
    · cases hu with
      | same => rfl
      | fields => exact absurd hkey (by decide)

/-- The attributes of steps that agree do so as well. -/
theorem attributes_agree {t : StepType}
    (h : Members.Agree (Spare (declared (some t)) (strict (some t))) (Alike (some t)) ms ns) :
    ObjectsAgree (Spare t.declared t.strict) t.Alike (.obj (ms.filter fun m => isAttribute m.1))
      (.obj (ns.filter fun m => isAttribute m.1)) := by
  refine .obj (left.sublist (List.filter_sublist.map _)) (right.sublist (List.filter_sublist.map _))
    (h.filter_both (fun key v hkey hv => ?_) fun key v w hkey hvw => ?_)
  · exact hv.imp_left fun hnot hdeclared => hnot (by simp [declared, hdeclared])
  · obtain rfl | ⟨_, ⟨⟩, halike⟩ := hvw
    · exact .same key v
    · exact halike

end StepDefinition

/-- The answer to attributes depends only on the normal form of what is read from them. -/
theorem Kinds.settle_congr {t : StepType} (name : String) {ms ns : Members}
    (h : (Action.read t (.obj ms)).map Action.normalize =
      (Action.read t (.obj ns)).map Action.normalize) :
    (builtin t).settle name ms = (builtin t).settle name ns := by
  rw [settle_builtin, settle_builtin]
  cases ha : Action.read t (.obj ms) with
  | error e =>
    rw [ha] at h
    rw [Except.map_eq_error_iff.1 h.symm]
  | ok a =>
    rw [ha] at h
    obtain ⟨b, hb, hab⟩ := Except.map_eq_ok_iff.1 h.symm
    simp only [hb, hab]

namespace Registry

theorem check_congr {d e : StepDefinition} (hname : d.name = e.name) (htag : d.tag = e.tag)
    (hread : ∀ t : StepType, t.tag = d.tag →
      (Action.read t (.obj d.attributes)).map Action.normalize =
        (Action.read t (.obj e.attributes)).map Action.normalize) :
    full.check d = full.check e := by
  obtain ⟨tag, name, as⟩ := d
  obtain ⟨_, _, bs⟩ := e
  obtain rfl : name = _ := hname
  obtain rfl : tag = _ := htag
  unfold check StepDefinition.type
  split_ifs with hblank htag
  · rfl
  · rfl
  cases ht : StepType.ofTag? tag with
  | none => simp only [bind, Except.bind]
  | some t =>
    have hsettle := Kinds.settle_congr name (hread t (StepType.ofTag?_eq_some_iff.1 ht))
    simp only [bind, Except.bind, expect_full, hsettle]

/-- The type of a step is that of the tag that is read. -/
theorem stepType?_of_readText {ms : Members} {t : StepType}
    (h : StepDefinition.readText ms "type" = .ok t.tag) : stepType? (.obj ms) = some t := by
  have htext := text?_of_orBlank h
  rw [stepType?]
  rcases hget : (ms.get? "type").bind text? with _ | tag
  · rw [hget] at htext
    exact absurd htext.symm t.tag_ne_empty
  · rw [hget] at htext
    rw [Option.bind_some, StepType.ofTag?_eq_some_iff]
    exact htext.symm

/-- Steps that agree are both not read, with the same fault, or get the same answer. -/
theorem create_agree {x y : Json} (h : StepsAgree x y) :
    (StepDefinition.read x).map full.create = (StepDefinition.read y).map full.create := by
  unfold StepsAgree at h
  generalize htype : x.stepType? = t at h
  cases h with
  | refl => rfl
  | @obj ms ns left right members =>
    have hname : StepDefinition.readText ms "name" = StepDefinition.readText ns "name" :=
      StepDefinition.readText_agree left right members (by decide)
    have htag : StepDefinition.readText ms "type" = StepDefinition.readText ns "type" :=
      StepDefinition.readText_agree left right members (by decide)
    rw [StepDefinition.read, StepDefinition.read, ← hname, ← htag]
    cases StepDefinition.readText ms "name" with
    | error => rfl
    | ok name =>
      cases htag : StepDefinition.readText ms "type" with
      | error => rfl
      | ok tag =>
        refine congrArg Except.ok ?_
        refine congrArg (fun answer => answer >>= full.build) (check_congr rfl rfl ?_)
        rintro u rfl
        obtain rfl : some u = t := (stepType?_of_readText htag).symm.trans htype
        exact Action.read_agree u (StepDefinition.attributes_agree left right members)

end Registry

/-! ## The flag of a form -/

/-- The types of steps that may submit a form. -/
def StepType.Submits (t : StepType) : Prop :=
  t = form ∨ t = formSelector

/-- Where a flag is absent, what is read is stored with the flag of the blank record. -/
theorem Record.get?_sorted_of_absent {α : Type} {r : Record α} {name : String} {get : α → Bool}
    {set : Bool → α → α} (hnodup : (r.members.map Member.name).Nodup)
    (hrequired : ∀ m ∈ r.members, m.required = false)
    (hmember : (r.members.find? fun m => m.name = name) =
      some (.optional name asBool (fun b => some (.bool b)) get set))
    (hset : ∀ b x, get (set b x) = b)
    (hothers : ∀ m ∈ r.members, m.name ≠ name → m.Keeps get) {ms : Members}
    (hms : (ms.map Prod.fst).Nodup) (habsent : ms.get? name = none) {x : α}
    (h : r.read (.obj ms) = .ok x) :
    (r.sorted x).get? name = some (.bool (get r.blank)) := by
  rw [r.read_obj hrequired] at h
  have hblank : asBool (.bool (get r.blank)) = .ok (get r.blank) := rfl
  have hpart := part_of_readMembers hmember hset hothers hblank h
  rw [Members.get?_ofList_of_nodup hms, habsent] at hpart
  have hget : get r.blank = get x := Except.ok.inj hpart
  have hstored := get?_sorted hnodup (x := x) (List.mem_of_find?_eq_some hmember) rfl
  rw [Json.canonical] at hstored
  rw [hget]
  exact hstored

/-- A form without a flag is submitted. -/
theorem Step.submit_of_absent {d : StepDefinition} {s : Step} (h : Registry.full.create d = .ok s)
    (hkeys : (d.attributes.map Prod.fst).Nodup) (htype : s.type.Submits)
    (habsent : d.get? "submit" = none) : s.definition.get? "submit" = some (.bool true) := by
  obtain ⟨-, -, -, raw, hread, hstores⟩ := Registry.check_cases (Registry.create_eq_ok_iff.1 h)
  have hget : s.definition.get? "submit" = raw.normalize.attributes.get? "submit" :=
    congrArg (fun ms => ms.get? "submit") hstores.attributes
  rw [hget]
  obtain ht | ht := htype
  · have hform : Action.read .form (.obj d.attributes) = .ok raw := ht ▸ hread
    obtain ⟨a, ha, rfl⟩ := Except.map_eq_ok_iff.1 hform
    have hstored : (Action.form a).normalize.attributes = Form.record.sorted a :=
      Action.attributes_of_write rfl
    rw [hstored]
    exact Record.get?_sorted_of_absent a.recoverable.nodup Form.record_parts.required rfl
      (fun _ _ => rfl) (by simp [Form.record, Member.list, Member.keeps_optional]) hkeys habsent ha
  · have hform : Action.read .formSelector (.obj d.attributes) = .ok raw := ht ▸ hread
    obtain ⟨a, ha, rfl⟩ := Except.map_eq_ok_iff.1 hform
    have hstored : (Action.formSelector a).normalize.attributes = FormSelector.record.sorted a :=
      Action.attributes_of_write rfl
    rw [hstored]
    exact Record.get?_sorted_of_absent a.recoverable.nodup FormSelector.record_parts.required rfl
      (fun _ _ => rfl)
      (by simp [FormSelector.record, Member.text, Member.list, Member.keeps_optional]) hkeys habsent ha

/-- What the definition that is read from an object consists of. -/
theorem StepDefinition.read_eq_ok_iff {ms : Members} {d : StepDefinition} :
    read (.obj ms) = .ok d ↔ readText ms "name" = .ok d.name ∧ readText ms "type" = .ok d.tag ∧
      (ms.filter fun m => isAttribute m.1) = d.attributes := by
  obtain ⟨tag, name, attributes⟩ := d
  simp only [read, Except.bind_eq_ok_iff, Except.ok.injEq, mk.injEq]
  constructor
  · rintro ⟨_, hname, _, htag, rfl, rfl, hattributes⟩
    exact ⟨hname, htag, hattributes⟩
  · rintro ⟨hname, htag, hattributes⟩
    exact ⟨_, hname, _, htag, rfl, rfl, hattributes⟩

/-- A step is read alike if an attribute is put into its object. -/
theorem StepDefinition.read_insert {ms : Members} {d : StepDefinition} (h : read (.obj ms) = .ok d)
    {key : String} (hkey : isAttribute key = true) (v : Json) :
    ∃ e, read (.obj (ms.insert key v)) = .ok e ∧ e.name = d.name ∧ e.tag = d.tag ∧
      (key, v) ∈ e.attributes := by
  have hne : "type" ≠ key ∧ "name" ≠ key := by
    constructor <;> rintro rfl <;> exact absurd hkey (by decide)
  obtain ⟨hname, htag, -⟩ := read_eq_ok_iff.1 h
  refine ⟨⟨d.tag, d.name, (ms.insert key v).filter fun m => isAttribute m.1⟩,
    read_eq_ok_iff.2 ⟨?_, ?_, rfl⟩, rfl, rfl, ?_⟩
  · rwa [readText, Members.get?_insert, if_neg hne.2]
  · rwa [readText, Members.get?_insert, if_neg hne.1]
  · rw [List.mem_filter]
    exact ⟨Members.mem_of_get? (by rw [Members.get?_insert, if_pos rfl]), hkey⟩

/-- A null flag of a form is a fault of its attributes. -/
theorem Registry.create_of_null_submit {d : StepDefinition} (hname : d.name ≠ "") {t : StepType}
    (ht : t.tag = d.tag) (htype : t.Submits) (hnull : ("submit", .null) ∈ d.attributes) :
    ∃ fault, full.create d = .error (.definition (.attributes d.name fault)) := by
  simp only [create_eq_error_iff]
  refine (verdict d).judged.misshapen.2 ⟨hname, t, ht, fun hshape => ?_⟩
  obtain rfl | rfl := htype
  · exact hshape _ hnull IsFlag (by simp [StepType.shapes])
  · exact hshape _ hnull IsFlag (by simp [StepType.shapes])

end SiteScript
