import SiteScript.Proofs.Json.Acceptance
import SiteScript.Proofs.Step.FieldList
import SiteScript.Proofs.Step.Picking
import SiteScript.Proofs.Step.SelectorScript

/-!
# Where the fields of a selector step are looked up

A picker asks for a field of a selector step within the container, unless the definition says that
the container is not used; a script looks the field up in the container of the checked step.  The
two go by rules of their own (`StepDefinition.pickParent`, `Selector.normalize`), and agree on every
definition that passes the check (`Step.parent_eq_container`).
-/

namespace SiteScript

open Token

/-! ## Attributes that are read -/

namespace Selector

variable {ms : Members} {a : Selector}

/-- What is read from attributes, attribute by attribute; one that is absent is read like null. -/
structure ReadFrom (ms : Members) (a : Selector) : Prop where
  scope : Json.asOption Json.asBool ((ms.get? "scoped").getD .null) = .ok a.scope
  container : Json.orBlank "" Json.asText ((ms.get? "container").getD .null) = .ok a.container
  fields : Json.orBlank [] (Json.asList ScrapeField.record.read) ((ms.get? "fields").getD .null) =
    .ok a.fields

theorem readFrom_of_read (hkeys : (ms.map Prod.fst).Nodup) (h : record.read (.obj ms) = .ok a) :
    ReadFrom ms a := by
  have hrequired : ∀ m ∈ record.members, m.required = false := by
    simp [record, Member.list, Member.text]
  have hget := Members.get?_ofList_of_nodup hkeys
  rw [record.read_obj hrequired] at h
  constructor
  · rw [← hget]
    refine Record.part_of_readMembers rfl (fun _ _ => rfl) ?_ rfl h
    simp [record, Member.list, Member.text, Member.keeps_optional]
  · rw [← hget]
    refine Record.part_of_readMembers rfl (fun _ _ => rfl) ?_ rfl h
    simp [record, Member.list, Member.text, Member.keeps_optional]
  · rw [← hget]
    refine Record.part_of_readMembers rfl (fun _ _ => rfl) ?_ rfl h
    simp [record, Member.list, Member.text, Member.keeps_optional]

theorem ReadFrom.length_fields (h : ReadFrom ms a) {xs : List Json}
    (hxs : ms.get? "fields" = some (.arr xs)) : xs.length = a.fields.length := by
  have hfields := h.fields
  rw [hxs, Option.getD_some] at hfields
  have hmap : xs.mapM ScrapeField.record.read = .ok a.fields := hfields
  exact (mapM_eq_ok_iff.1 hmap).length_eq

/-- A container that is not said to be used is used if it is there. -/
theorem container_normalize (a : Selector) :
    a.normalize.container = if a.scope.getD true then a.container else "" := by
  obtain ⟨scope, container, fields⟩ := a
  cases scope with
  | some b => rfl
  | none =>
    by_cases h : container = ""
    · simp [normalize, isScoped, h]
    · simp [normalize, isScoped, h]

end Selector

namespace StepDefinition

variable {d : StepDefinition}

/-- The element that a picker asks for, in terms of what is read from the definition. -/
theorem pickParent_eq {a : Selector} (h : a.ReadFrom d.attributes) :
    d.pickParent = if a.scope.getD true then a.container else "" := by
  have hscope : (d.get? "scoped").bind Json.bool? = a.scope := Json.bool?_of_asOption h.scope
  have hcontainer : (d.text? "container").getD "" = a.container := Json.text?_of_orBlank h.container
  rw [pickParent, hscope, hcontainer]

/-- A picker is asked for every field that is there. -/
theorem request_field (hd : d.type = .ok .selector) {index : Nat} {ms : Members}
    (h : fieldAt? (d.get? "fields") index = some ms) :
    d.request (.field index) = .ok ⟨d.pickParent, "*"⟩ := by
  unfold request
  rw [hd]
  simp only [bind, Except.bind]
  rw [field_eq, h]

/-- The keys of the fields, if every field is an object with a text for its key. -/
def fieldKeys? (d : StepDefinition) : Option (List String) :=
  ((d.get? "fields").bind Json.items?).bind fun xs =>
    xs.mapM fun x => (x.members?.bind fun ms => ms.get? "key").bind Json.text?

end StepDefinition

/-! ## Checked steps -/

theorem Selector.attributes_eq (a : Selector) :
    (Action.selector a).attributes = record.sorted a :=
  Action.attributes_of_write rfl

namespace CheckedStep

variable {v : CheckedStep} {a : Selector} (h : v.Stores (.selector a))

include h

theorem normalize_of_selector : a.normalize = a :=
  Action.selector.inj h.settled.normal

theorem scope_of_selector : a.scope = some a.isScoped := by
  have hscope := congrArg Selector.scope (normalize_of_selector h)
  exact hscope.symm

/-- A container that is used is not empty, and one that is not used is. -/
theorem container_eq_empty_iff : a.container = "" ↔ a.isScoped = false := by
  have hmet := h.settled.met
  rw [Action.unmet?, Option.orElse_eq_orElse, Option.orElse_eq_or, Option.or_eq_none_iff] at hmet
  have hcontainer := congrArg Selector.container (normalize_of_selector h)
  cases hscoped : a.isScoped with
  | false =>
    rw [Selector.normalize, hscoped] at hcontainer
    exact ⟨fun _ => rfl, fun _ => hcontainer.symm⟩
  | true =>
    have hneeds := hmet.1
    rw [hscoped, if_pos rfl, Action.needs] at hneeds
    simpa using hneeds

theorem awaited_eq :
    a.awaited = if a.container = "" then a.fields.map ScrapeField.key else [a.container] := by
  simp only [Selector.awaited, container_eq_empty_iff h]
  cases a.isScoped <;> rfl

theorem get?_definition {m : Member Selector} {x : Json} (hm : m ∈ Selector.record.members)
    (hx : m.write a = some x) : v.definition.get? m.name = some x.canonical := by
  rw [definition, StepDefinition.get?, h.attributes, Selector.attributes_eq]
  exact Record.get?_sorted a.recoverable.nodup hm hx

theorem get?_scoped_definition : v.definition.get? "scoped" = some (.bool a.isScoped) := by
  refine (get?_definition h (List.mem_cons_self) rfl).trans ?_
  rw [scope_of_selector h]
  simp [Json.canonical]

theorem get?_container_definition : v.definition.get? "container" = some (.str a.container) := by
  refine (get?_definition h (List.mem_cons_of_mem _ List.mem_cons_self) rfl).trans ?_
  rw [Json.canonical]

theorem get?_fields_definition :
    v.definition.get? "fields" = some (.arr (a.fields.map ScrapeField.json)) := by
  refine (get?_definition h (.tail _ (.tail _ List.mem_cons_self)) rfl).trans ?_
  rw [ScrapeField.canonical_fields]

theorem fieldKeys?_definition : v.definition.fieldKeys? = some (a.fields.map ScrapeField.key) := by
  rw [StepDefinition.fieldKeys?, get?_fields_definition h, Option.bind_some]
  show (a.fields.map ScrapeField.json).mapM _ = _
  induction a.fields with
  | nil => rfl
  | cons f fs ih =>
    rw [List.map_cons, List.mapM_cons, ih]
    rfl

/-- What is stored of a selector step reads as its action. -/
theorem readFrom_definition : a.ReadFrom v.definition.attributes := by
  have hread : Selector.record.read (.obj (Selector.record.sorted a)) = .ok a := by
    rw [← Record.canonical_write]
    exact a.recoverable.read_canonical
  rw [← Selector.attributes_eq, ← h.attributes] at hread
  exact Selector.readFrom_of_read (tidy_definition h).sorted.nodup hread

/-- A picker is asked for every field of a stored step, in the container. -/
theorem request_definition {index : Nat} (hindex : index < a.fields.length) :
    v.definition.request (.field index) = .ok ⟨a.container, "*"⟩ := by
  have htype : v.definition.type = .ok .selector := by
    rw [definition, ← h.type]
    rfl
  have hparent : v.definition.pickParent = a.container := by
    rw [StepDefinition.pickParent_eq (readFrom_definition h), ← a.container_normalize,
      normalize_of_selector h]
  obtain ⟨ms, hms⟩ : ∃ ms, a.fields[index].json = .obj ms := ⟨_, rfl⟩
  have hfield : StepDefinition.fieldAt? (v.definition.get? "fields") index = some ms := by
    refine StepDefinition.fieldAt?_eq_some_iff.2 ⟨_, get?_fields_definition h, ?_⟩
    rw [List.getElem?_map, List.getElem?_eq_getElem hindex, Option.map_some, hms]
  rw [StepDefinition.request_field htype hfield, hparent]

end CheckedStep

namespace Step

variable {r : Registry} {d : StepDefinition} {v : CheckedStep}

open CheckedStep

/-- What is stored of a selector step is read from its definition and put in normal form, and its
container is the element that a picker asks for. -/
theorem exists_selector_of_check (hkeys : (d.attributes.map Prod.fst).Nodup)
    (hd : d.type = .ok .selector) (h : r.check d = .ok v) :
    ∃ a : Selector, v.Stores (.selector a) ∧ d.pickParent = a.container ∧
      ∀ xs, d.get? "fields" = some (.arr xs) → xs.length = a.fields.length := by
  obtain ⟨htype, -, -, raw, hread, hstores⟩ := Registry.check_cases h
  rw [hd] at htype
  rw [← Except.ok.inj htype] at hread
  obtain ⟨a, ha, rfl⟩ := Except.map_eq_ok_iff.1 hread
  have hfrom := Selector.readFrom_of_read hkeys ha
  refine ⟨a.normalize, hstores, ?_, fun xs hxs => ?_⟩
  · rw [StepDefinition.pickParent_eq hfrom, a.container_normalize]
  · rw [hfrom.length_fields hxs]
    exact (List.length_map _).symm

/-- Picker and script look the fields of a selector step up in the same element.  If a picker can be
asked for a field of a definition that passes the check, then it is asked to look in the container
that is stored, and the stored definition has it asked for the same.  That container is empty if and
only if it is stored as not used.  The script of the step that is built passes it to `scrapeWithin`,
and waits for it alone; if it is empty, the script waits for the key of every field.  As in any map, a
key of the attributes stands once. -/
theorem parent_eq_container (hkeys : (d.attributes.map Prod.fst).Nodup)
    (hd : d.type = .ok .selector) (h : r.check d = .ok v) {index : Nat} {q : PickRequest}
    (hq : d.request (.field index) = .ok q) :
    v.definition.text? "container" = some q.parent ∧
      v.definition.request (.field index) = .ok q ∧
      (q.parent = "" ↔ v.definition.get? "scoped" = some (.bool false)) ∧
      ∃ built keys, r.build v = .ok built ∧ v.definition.fieldKeys? = some keys ∧
        ∀ w, ∃ script ts, built.script w = .ok script ∧ Token.lex script.toList = some ts ∧
          calls ".evaluate" ts = [[marks "scrapeWithin".toList, [.literal '\'' q.parent],
            fieldTokens built.action.extracted]] ∧
          calls ".waitForSelector" ts =
            (if q.parent = "" then keys else [q.parent]).map fun key => [[.literal '\'' key]] := by
  obtain ⟨a, hstores, hparent, hlength⟩ := exists_selector_of_check hkeys hd h
  obtain ⟨ms, hms⟩ := StepDefinition.exists_field_of_request hq
  obtain rfl : q = ⟨a.container, "*"⟩ := by
    rw [StepDefinition.request_field hd hms, hparent] at hq
    exact (Except.ok.inj hq).symm
  have hindex : index < a.fields.length := by
    obtain ⟨xs, hxs, hfield⟩ := StepDefinition.fieldAt?_eq_some_iff.1 hms
    rw [← hlength xs hxs]
    exact (List.getElem?_eq_some_iff.1 hfield).1
  obtain ⟨built, hbuild, -, haction⟩ := Registry.build_stores (Registry.check_cases h).2.1 hstores
  refine ⟨?_, request_definition hstores hindex, ?_, built, _, hbuild,
    fieldKeys?_definition hstores, fun w => ?_⟩
  · rw [StepDefinition.text?, get?_container_definition hstores]
    rfl
  · rw [container_eq_empty_iff hstores, get?_scoped_definition hstores]
    simp
  · obtain ⟨script, ts, hscript, hlex, hevaluate, hwait⟩ := calls_script_selector haction w
    rw [awaited_eq hstores] at hwait
    rw [haction]
    exact ⟨script, ts, hscript, hlex, hevaluate, hwait⟩

/-- A definition that does not say whether its container is used. -/
def offersDefinition : StepDefinition :=
  ⟨"selector", "offers", [("container", .str ".offer"), ("fields", .arr [.obj [("key", .str "a")]])]⟩

/-- The answer to it. -/
def offers : CheckedStep :=
  ⟨.selector, "offers", (Action.selector ⟨some true, ".offer", [⟨"a", "a", "text"⟩]⟩).attributes,
    by decide⟩

theorem parent_offers :
    (offersDefinition.attributes.map Prod.fst).Nodup ∧ offersDefinition.type = .ok .selector ∧
      Registry.full.check offersDefinition = .ok offers ∧
      offersDefinition.request (.field 0) = .ok ⟨".offer", "*"⟩ ∧
      offers.definition.text? "container" = some ".offer" ∧
      ∃ built, Registry.full.build offers = .ok built ∧
        ∀ w, ∃ script ts, built.script w = .ok script ∧ Token.lex script.toList = some ts ∧
          calls ".evaluate" ts = [[marks "scrapeWithin".toList, [.literal '\'' ".offer"],
            fieldTokens [⟨"a", "a", "text"⟩]]] ∧
          calls ".waitForSelector" ts = [[[.literal '\'' ".offer"]]] := by
  have hkeys : (offersDefinition.attributes.map Prod.fst).Nodup := by decide
  have hcheck : Registry.full.check offersDefinition = .ok offers := by rfl
  have hrequest : offersDefinition.request (.field 0) = .ok ⟨".offer", "*"⟩ := by rfl
  obtain ⟨hcontainer, -, -, built, keys, hbuild, -, hscript⟩ :=
    parent_eq_container hkeys rfl hcheck hrequest
  have hread : (Registry.full.build offers).map (fun s => s.action.extracted) =
      .ok [⟨"a", "a", "text"⟩] := by rfl
  rw [hbuild] at hread
  have hextracted : built.action.extracted = [⟨"a", "a", "text"⟩] := Except.ok.inj hread
  rw [hextracted] at hscript
  exact ⟨hkeys, rfl, hcheck, hrequest, hcontainer, built, hbuild, hscript⟩

end Step

end SiteScript
