import Mathlib.Data.List.Nodup
import SiteScript.Proofs.Step.Shape
import SiteScript.Step.Rules

/-!
# Requirements of attributes

`StepType.Unmet` says of attributes, as they stand in JSON, which requirements of a type of step they
do not meet.  Requirements are checked in a fixed order (`Requirement.rank`), and an action that is
read from attributes reports the first one that they do not meet (`Action.isFirst_unmet?`).
-/

namespace SiteScript

/-! ## The order of requirements -/

namespace Requirement

/-- The place of a requirement in the order in which requirements are checked. -/
def rank : Requirement → Nat
  | siteName => 0
  | siteUrl => 1
  | stepName => 2
  | stepType => 3
  | key => 4
  | value => 5
  | container => 6
  | fields => 7
  | fieldKey index => 8 + index

theorem rank_injective : Function.Injective rank := by
  intro p q h
  cases p <;> cases q <;> simp only [rank, reduceCtorEq, fieldKey.injEq] at h ⊢ <;> omega

/-- The requirements that are not about one of several fields. -/
def plain : List Requirement :=
  [siteName, siteUrl, stepName, stepType, key, value, container, fields]

theorem mem_plain_or (r : Requirement) : r ∈ plain ∨ ∃ index, r = fieldKey index := by
  cases r with
  | fieldKey index => exact .inr ⟨index, rfl⟩
  | _ => exact .inl (by decide)

theorem toList_path_fieldKey (index : Nat) :
    (fieldKey index).path.toList =
      "step.fields[".toList ++ Nat.toDigits 10 index ++ "].key".toList := by
  rw [path, String.toList_append, String.toList_append, Nat.toString_eq_repr, Nat.toList_repr]

theorem path_ne_fieldKey {r : Requirement} (h : r ∈ plain) (index : Nat) :
    r.path ≠ (fieldKey index).path := by
  have hstart : ∀ p ∈ plain, p.path.toList.take 12 ≠ "step.fields[".toList := by decide
  intro heq
  apply hstart r h
  rw [heq, toList_path_fieldKey, List.append_assoc]
  exact List.take_left' rfl

/-- A path belongs to one requirement. -/
theorem path_injective : Function.Injective path := by
  have hplain : (plain.map path).Nodup := by decide
  intro p q h
  obtain hp | ⟨i, rfl⟩ := mem_plain_or p <;> obtain hq | ⟨j, rfl⟩ := mem_plain_or q
  · exact List.inj_on_of_nodup_map hplain hp hq h
  · exact absurd h (path_ne_fieldKey hp j)
  · exact absurd h.symm (path_ne_fieldKey hq i)
  · have hchars := congrArg String.toList h
    rw [toList_path_fieldKey, toList_path_fieldKey, List.append_left_inj,
      List.append_right_inj] at hchars
    have hvalue := congrArg (fun cs => Nat.ofDigitChars 10 cs 0) hchars
    simp only [Nat.ofDigitChars_ten_toDigits] at hvalue
    rw [hvalue]

/-- The first of the requirements with some property, if there is one. -/
def IsFirst (p : Requirement → Prop) : Option Requirement → Prop
  | some r => p r ∧ ∀ q, p q → r.rank ≤ q.rank
  | none => ∀ q, ¬ p q

namespace IsFirst

variable {p q : Requirement → Prop} {a b : Option Requirement}

theorem congr (h : IsFirst p a) (hpq : ∀ r, p r ↔ q r) : IsFirst q a := by
  rwa [← show p = q from funext fun r => propext (hpq r)]

/-- The first of some requirements and of others that come later. -/
theorem or (ha : IsFirst p a) (hb : IsFirst q b)
    (hlater : ∀ x y, p x → q y → x.rank ≤ y.rank) : IsFirst (fun r => p r ∨ q r) (a <|> b) := by
  cases a with
  | some r =>
    refine ⟨.inl ha.1, fun x hx => ?_⟩
    obtain hx | hx := hx
    · exact ha.2 x hx
    · exact hlater r x ha.1 hx
  | none => exact hb.congr fun r => ⟨.inr, fun hr => hr.resolve_left (ha r)⟩

theorem eq_some_iff (h : IsFirst p a) {r : Requirement} :
    a = some r ↔ p r ∧ ∀ q, p q → r.rank ≤ q.rank := by
  constructor
  · rintro rfl
    exact h
  · rintro ⟨hr, hleast⟩
    cases a with
    | none => exact absurd hr (h r)
    | some x =>
      exact congrArg some (rank_injective (Nat.le_antisymm (h.2 r hr) (hleast x h.1)))

end IsFirst

end Requirement

namespace Action

open Requirement (IsFirst)

theorem isFirst_needs (r : Requirement) (s : String) :
    IsFirst (fun q => q = r ∧ s = "") (needs r s) := by
  unfold needs
  split_ifs with h
  · exact ⟨⟨rfl, h⟩, fun q hq => by rw [hq.1]⟩
  · exact fun q hq => h hq.2

theorem isFirst_needsKeys (keys : List String) (index : Nat) :
    IsFirst (fun q => ∃ i, q = .fieldKey (index + i) ∧ keys[i]? = some "")
      (needsKeys index keys) := by
  induction keys generalizing index with
  | nil =>
    rintro q ⟨i, -, hi⟩
    cases hi
  | cons key keys ih =>
    refine ((isFirst_needs (.fieldKey index) key).or (ih (index + 1)) ?_).congr fun q => ?_
    · rintro x y ⟨rfl, -⟩ ⟨i, rfl, -⟩
      simp only [Requirement.rank]
      omega
    · constructor
      · rintro (⟨rfl, rfl⟩ | ⟨i, rfl, hi⟩)
        · exact ⟨0, rfl, rfl⟩
        · exact ⟨i + 1, by rw [Nat.add_assoc, Nat.add_comm 1], hi⟩
      · rintro ⟨i, rfl, hi⟩
        cases i with
        | zero => exact .inl ⟨rfl, Option.some.inj hi⟩
        | succ i => exact .inr ⟨i, by rw [Nat.add_assoc, Nat.add_comm 1], hi⟩

/-- Of a list of fields, the first requirement is that it is not empty, then come its keys. -/
theorem isFirst_needsFields (keys : List String) :
    IsFirst (fun q => (q = .fields ∧ keys = []) ∨ ∃ i, q = .fieldKey i ∧ keys[i]? = some "")
      (needsFields keys) := by
  unfold needsFields
  split_ifs with h
  · refine ⟨.inl ⟨rfl, h⟩, ?_⟩
    rintro q (⟨rfl, -⟩ | ⟨i, -, hi⟩)
    · exact Nat.le_refl _
    · rw [h] at hi
      cases hi
  · exact (isFirst_needsKeys keys 0).congr fun q => by simp [h]

/-- The normal form of an action meets the same requirements. -/
theorem unmet?_normalize (a : Action) : a.normalize.unmet? = a.unmet? := by
  have hkeys : ScrapeField.key ∘ ScrapeField.normalize = ScrapeField.key := rfl
  cases a with
  | scrape a => simp only [normalize, unmet?, List.map_map, hkeys]
  | selector a =>
    have hscoped : a.normalize.isScoped = a.isScoped := rfl
    simp only [normalize, unmet?, hscoped]
    simp only [Selector.normalize, List.map_map, hkeys]
    split_ifs <;> rfl
  | _ => rfl

end Action

/-! ## Values that are read -/

namespace Members

/-- The value under a key; as in any map a key has one value, and of several the last one counts. -/
def value? (ms : Members) (key : String) : Option Json :=
  (ofList ms).get? key

/-- The text under a key, empty if there is none. -/
def text (ms : Members) (key : String) : String :=
  ((ms.value? key).bind Json.text?).getD ""

/-- The fields that stand in a list under a key, none if there is no list. -/
def fields (ms : Members) : List Json :=
  ((ms.value? "fields").bind Json.items?).getD []

end Members

/-- The key of a field with members of some names: it stands under its name, or in its place. -/
def Json.fieldKey (names : List String) : Json → String
  | obj ms => Members.text ms "key"
  | arr xs => (xs[names.idxOf "key"]?.bind text?).getD ""
  | _ => ""

namespace StepType

/-- The members of the fields of a type, if it has fields. -/
def fieldNames? : StepType → Option (List String)
  | form | formSelector => some FormField.names
  | scrape | selector => some ScrapeField.names
  | click | select => none

/-- Attributes of a type do not meet a requirement. -/
def Unmet (t : StepType) (ms : Members) : Requirement → Prop
  | .key => (t = click ∨ t = select ∨ t = formSelector) ∧ ms.text "key" = ""
  | .value => t = select ∧ ms.text "value" = ""
  | .container =>
    t = selector ∧ ms.value? "scoped" = some (.bool true) ∧ ms.text "container" = ""
  | .fields => t.fieldNames?.isSome ∧ ms.fields = []
  | .fieldKey index =>
    ∃ names ∈ t.fieldNames?, ∃ x, ms.fields[index]? = some x ∧ x.fieldKey names = ""
  | .siteName | .siteUrl | .stepName | .stepType => False

end StepType

namespace Record

variable {α β : Type} {r : Record α}

theorem Declares.part_of_read {shapes : List (String × (Json → Prop))} (h : r.Declares shapes)
    {name : String} {read : Json → Except ShapeFault β} {write : β → Option Json} {get : α → β}
    {set : β → α → α}
    (hmember : (r.members.find? fun m => m.name = name) = some (.optional name read write get set))
    (hset : ∀ b x, get (set b x) = b) (hothers : ∀ m ∈ r.members, m.name ≠ name → m.Keeps get)
    (hblank : read .null = .ok (get r.blank)) {ms : Members} {x : α}
    (hread : r.read (.obj ms) = .ok x) : read ((ms.value? name).getD .null) = .ok (get x) := by
  rw [r.read_obj h.required] at hread
  exact part_of_readMembers hmember hset hothers hblank hread

theorem Declares.text_of_read {shapes : List (String × (Json → Prop))} (h : r.Declares shapes)
    {name : String} {get : α → String} {set : String → α → α}
    (hmember : (r.members.find? fun m => m.name = name) = some (.text name get set))
    (hset : ∀ b x, get (set b x) = b) (hothers : ∀ m ∈ r.members, m.name ≠ name → m.Keeps get)
    (hblank : get r.blank = "") {ms : Members} {x : α} (hread : r.read (.obj ms) = .ok x) :
    get x = ms.text name :=
  (Json.text?_of_orBlank
    (h.part_of_read hmember hset hothers (congrArg Except.ok hblank.symm) hread)).symm

/-- The key of a field that is read, whether it is an object or an array. -/
theorem fieldKey_of_read {names : List String} (hnames : r.members.map Member.name = names)
    (hkeys : names.Nodup) (htexts : ∀ m ∈ r.members, m.Takes Json.IsText)
    {get : α → String} {set : String → α → α}
    (hmember : r.members[names.idxOf "key"]? = some (.text "key" get set))
    (hset : ∀ b x, get (set b x) = b)
    (hothers : ∀ m ∈ r.members, m.name ≠ "key" → m.Keeps get)
    (hblank : get r.blank = "") {x : Json} {y : α} (h : r.read x = .ok y) :
    get y = x.fieldKey names := by
  subst hnames
  have hrequired : ∀ m ∈ r.members, m.required = false := fun m hm => (htexts m hm).required
  cases x with
  | obj ms =>
    have hfind : (r.members.find? fun m => m.name = "key") = some (.text "key" get set) :=
      find?_name hkeys (List.mem_of_getElem? hmember)
    rw [r.read_obj hrequired] at h
    exact (Json.text?_of_orBlank (part_of_readMembers hfind hset hothers
      (congrArg Except.ok hblank.symm) h)).symm
  | arr items =>
    exact (Json.text?_of_orBlank (part_of_readItems hkeys hmember hset hothers
      (congrArg Except.ok hblank.symm) h)).symm
  | null | bool | num | str => cases h

end Record

theorem FormField.key_of_read {x : Json} {f : FormField} (h : record.read x = .ok f) :
    f.key = x.fieldKey names := by
  refine Record.fieldKey_of_read rfl (by decide) ?_ rfl (fun _ _ => rfl) ?_ rfl h
  · simp [record, Member.Takes.text]
  · simp [record, Member.text, Member.keeps_optional]

theorem ScrapeField.key_of_read {x : Json} {f : ScrapeField} (h : record.read x = .ok f) :
    f.key = x.fieldKey names := by
  refine Record.fieldKey_of_read rfl (by decide) ?_ rfl (fun _ _ => rfl) ?_ rfl h
  · simp [record, Member.Takes.text]
  · simp [record, Member.text, Member.keeps_optional]

/-- The keys of the fields that are read. -/
theorem Record.Declares.keys_of_read {α β : Type} {r : Record α}
    {shapes : List (String × (Json → Prop))} (h : r.Declares shapes)
    {item : Json → Except ShapeFault β} {write : β → Json} {get : α → List β}
    {set : List β → α → α}
    (hmember : (r.members.find? fun m => m.name = "fields") =
      some (.list "fields" item write get set))
    (hset : ∀ b x, get (set b x) = b)
    (hothers : ∀ m ∈ r.members, m.name ≠ "fields" → m.Keeps get) (hblank : get r.blank = [])
    {key : β → String} {names : List String}
    (hkey : ∀ {x f}, item x = .ok f → key f = x.fieldKey names) {ms : Members} {x : α}
    (hread : r.read (.obj ms) = .ok x) :
    (get x).map key = ms.fields.map (Json.fieldKey names) := by
  have hfields := h.part_of_read hmember hset hothers (congrArg Except.ok hblank.symm) hread
  unfold Members.fields
  cases hvalue : ms.value? "fields" with
  | none =>
    rw [hvalue, Option.getD_none] at hfields
    rw [← Except.ok.inj hfields]
    rfl
  | some v =>
    rw [hvalue, Option.getD_some] at hfields
    cases v with
    | null =>
      rw [← Except.ok.inj hfields]
      rfl
    | arr xs =>
      have hitems : List.Forall₂ (fun x f => item x = .ok f) xs (get x) := mapM_eq_ok_iff.1 hfields
      show (get x).map key = xs.map (Json.fieldKey names)
      rw [← List.forall₂_eq_eq_eq, List.forall₂_map_left_iff, List.forall₂_map_right_iff]
      exact hitems.flip.imp fun f x hx => hkey hx
    | _ => cases hfields

section

variable {ms : Members}

theorem Click.key_of_read {a : Click} (h : record.read (.obj ms) = .ok a) : a.key = ms.text "key" :=
  Click.declares.text_of_read rfl (fun _ _ => rfl) (by simp [record, Member.text]) rfl h

theorem Select.key_of_read {a : Select} (h : record.read (.obj ms) = .ok a) :
    a.key = ms.text "key" :=
  Select.declares.text_of_read rfl (fun _ _ => rfl)
    (by simp [record, Member.text, Member.keeps_optional]) rfl h

theorem Select.value_of_read {a : Select} (h : record.read (.obj ms) = .ok a) :
    a.value = ms.text "value" :=
  Select.declares.text_of_read rfl (fun _ _ => rfl)
    (by simp [record, Member.text, Member.keeps_optional]) rfl h

theorem Form.keys_of_read {a : Form} (h : record.read (.obj ms) = .ok a) :
    a.fields.map FormField.key = ms.fields.map (Json.fieldKey FormField.names) :=
  Form.declares.keys_of_read rfl (fun _ _ => rfl)
    (by simp [record, Member.list, Member.keeps_optional]) rfl FormField.key_of_read h

theorem FormSelector.key_of_read {a : FormSelector} (h : record.read (.obj ms) = .ok a) :
    a.key = ms.text "key" :=
  FormSelector.declares.text_of_read rfl (fun _ _ => rfl)
    (by simp [record, Member.text, Member.list, Member.keeps_optional]) rfl h

theorem FormSelector.keys_of_read {a : FormSelector} (h : record.read (.obj ms) = .ok a) :
    a.fields.map FormField.key = ms.fields.map (Json.fieldKey FormField.names) :=
  FormSelector.declares.keys_of_read rfl (fun _ _ => rfl)
    (by simp [record, Member.text, Member.list, Member.keeps_optional]) rfl FormField.key_of_read h

theorem Scrape.keys_of_read {a : Scrape} (h : record.read (.obj ms) = .ok a) :
    a.fields.map ScrapeField.key = ms.fields.map (Json.fieldKey ScrapeField.names) :=
  Scrape.declares.keys_of_read rfl (fun _ _ => rfl) (by simp [record, Member.list]) rfl
    ScrapeField.key_of_read h

theorem Selector.scope_of_read {a : Selector} (h : record.read (.obj ms) = .ok a) :
    (ms.value? "scoped").bind Json.bool? = a.scope := by
  refine Json.bool?_of_asOption (Selector.declares.part_of_read rfl (fun _ _ => rfl) ?_ rfl h)
  simp [record, Member.text, Member.list, Member.keeps_optional]

theorem Selector.container_of_read {a : Selector} (h : record.read (.obj ms) = .ok a) :
    a.container = ms.text "container" :=
  Selector.declares.text_of_read rfl (fun _ _ => rfl)
    (by simp [record, Member.text, Member.list, Member.keeps_optional]) rfl h

theorem Selector.keys_of_read {a : Selector} (h : record.read (.obj ms) = .ok a) :
    a.fields.map ScrapeField.key = ms.fields.map (Json.fieldKey ScrapeField.names) :=
  Selector.declares.keys_of_read rfl (fun _ _ => rfl)
    (by simp [record, Member.text, Member.list, Member.keeps_optional]) rfl ScrapeField.key_of_read h

end

/-! ## The first requirement that is not met -/

namespace Action

open Requirement (IsFirst)

/-- A container is asked for if it is said to be used, and only then. -/
theorem isFirst_container (a : Selector) :
    IsFirst (fun q => q = .container ∧ a.scope = some true ∧ a.container = "")
      (if a.isScoped then needs .container a.container else none) := by
  split_ifs with h
  · refine (isFirst_needs .container a.container).congr fun q => ?_
    constructor
    · rintro ⟨rfl, hblank⟩
      refine ⟨rfl, ?_, hblank⟩
      -- An empty container is not used unless that is said.
      rw [Selector.isScoped, hblank] at h
      cases hscope : a.scope with
      | none =>
        rw [hscope] at h
        exact absurd h (by decide)
      | some b =>
        rw [hscope] at h
        exact congrArg some h
    · rintro ⟨rfl, -, hblank⟩
      exact ⟨rfl, hblank⟩
  · rintro q ⟨-, hscope, -⟩
    rw [Selector.isScoped, hscope] at h
    exact h rfl

section

variable {ms : Members} (t : StepType) {names : List String} (ht : t.fieldNames? = some names)
  {keys : List String} (hkeys : keys = ms.fields.map (Json.fieldKey names))
include ht hkeys

theorem isFirst_of_keys :
    IsFirst (fun q => (q = .fields ∧ t.Unmet ms .fields) ∨
      ∃ i, q = .fieldKey i ∧ t.Unmet ms (.fieldKey i)) (needsFields keys) := by
  refine (isFirst_needsFields keys).congr fun q => ?_
  simp [StepType.Unmet, ht, hkeys]

/-- The fields come after everything else that a type asks for. -/
theorem isFirst_orElse_keys {p : Requirement} (hp : p.rank ≤ Requirement.fields.rank) {blank : Prop}
    {o : Option Requirement} (ho : IsFirst (fun q => q = p ∧ blank) o) :
    IsFirst (fun q => (q = p ∧ blank) ∨ (q = .fields ∧ t.Unmet ms .fields) ∨
      ∃ i, q = .fieldKey i ∧ t.Unmet ms (.fieldKey i)) (o <|> needsFields keys) := by
  refine ho.or (isFirst_of_keys t ht hkeys) ?_
  rintro x y ⟨rfl, -⟩ (⟨rfl, -⟩ | ⟨i, rfl, -⟩)
  · exact hp
  · simp only [Requirement.rank] at hp ⊢
    omega

end

/-- An action reports the first requirement that the attributes it is read from do not meet. -/
theorem isFirst_unmet? {t : StepType} {ms : Members} {raw : Action}
    (h : read t (.obj ms) = .ok raw) : IsFirst (t.Unmet ms) raw.unmet? := by
  cases t with
  | click =>
    obtain ⟨a, ha, rfl⟩ := Except.map_eq_ok_iff.1 h
    refine (isFirst_needs .key a.key).congr fun q => ?_
    cases q <;> simp [StepType.Unmet, StepType.fieldNames?, Click.key_of_read ha]
  | select =>
    obtain ⟨a, ha, rfl⟩ := Except.map_eq_ok_iff.1 h
    refine ((isFirst_needs .key a.key).or (isFirst_needs .value a.value) ?_).congr fun q => ?_
    · rintro x y ⟨rfl, -⟩ ⟨rfl, -⟩
      decide
    · cases q <;>
        simp [StepType.Unmet, StepType.fieldNames?, Select.key_of_read ha, Select.value_of_read ha]
  | form =>
    obtain ⟨a, ha, rfl⟩ := Except.map_eq_ok_iff.1 h
    refine (isFirst_of_keys .form rfl (Form.keys_of_read ha)).congr fun q => ?_
    cases q <;> simp [StepType.Unmet]
  | formSelector =>
    obtain ⟨a, ha, rfl⟩ := Except.map_eq_ok_iff.1 h
    refine (isFirst_orElse_keys .formSelector rfl (FormSelector.keys_of_read ha) (by decide)
      (isFirst_needs .key a.key)).congr fun q => ?_
    cases q <;> simp [StepType.Unmet, FormSelector.key_of_read ha]
  | scrape =>
    obtain ⟨a, ha, rfl⟩ := Except.map_eq_ok_iff.1 h
    refine (isFirst_of_keys .scrape rfl (Scrape.keys_of_read ha)).congr fun q => ?_
    cases q <;> simp [StepType.Unmet]
  | selector =>
    obtain ⟨a, ha, rfl⟩ := Except.map_eq_ok_iff.1 h
    refine (isFirst_orElse_keys .selector rfl (Selector.keys_of_read ha) (by decide)
      (isFirst_container a)).congr fun q => ?_
    cases q <;> simp [StepType.Unmet, ← Selector.container_of_read ha,
      ← Json.bind_bool?_eq_some_iff, Selector.scope_of_read ha]

end Action

end SiteScript
