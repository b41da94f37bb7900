import Mathlib.Data.List.Basic
import SiteScript.Except
import SiteScript.Json.Record
import SiteScript.Proofs.Json.Members

/-!
# Reading written records

A value is read back from the sorted form of the record written of it
(`Record.Recoverable.read_canonical`) if each member restores itself, leaves the others alone, and
is left out only where it has its default.  The order in which the members stand does not matter.
-/

namespace SiteScript

/-- A function is injective if what it is applied to can be recovered from its values. -/
theorem Except.injective_of_ok {ε α β : Type} {f : α → β} {g : β → Except ε α}
    (h : ∀ x, g (f x) = .ok x) : Function.Injective f := by
  intro x y hxy
  have hx := h x
  rw [hxy, h y] at hx
  exact (Except.ok.inj hx).symm

/-! ## Lists -/

namespace Json

variable {α : Type} {read : Json → Except ShapeFault α} {write : α → Json} {xs : List α}
  (h : ∀ x ∈ xs, read (write x).canonical = .ok x)
include h

/-- A list is read back from what is written of its items if each of them is. -/
theorem asList_canonical : asList read (arr (xs.map write)).canonical = .ok xs := by
  rw [canonical, canonicalItems_eq_map, asList, List.map_map]
  induction xs with
  | nil => rfl
  | cons x xs ih =>
    obtain ⟨hx, hxs⟩ := List.forall_mem_cons.1 h
    rw [List.map_cons, List.mapM_cons, ih hxs, Function.comp, hx]
    rfl

theorem orBlank_asList : orBlank [] (asList read) (arr (xs.map write)).canonical = .ok xs := by
  rw [← asList_canonical h, canonical]
  rfl

end Json

/-! ## Members -/

namespace Member

variable {α β : Type} (name : String) (read : Json → Except ShapeFault β)
  (write : β → Option Json) (get : α → β) (set : β → α → α)

@[simp]
theorem name_optional : (optional name read write get set).name = name := rfl

@[simp]
theorem required_optional : (optional name read write get set).required = false := rfl

@[simp]
theorem write_optional (x : α) : (optional name read write get set).write x = write (get x) := rfl

@[simp]
theorem read_optional (v : Json) :
    (optional name read write get set).read v = (read v).map set := rfl

/-- Reading the member does not change a part of the record. -/
def Keeps {γ : Type} (part : α → γ) (m : Member α) : Prop :=
  ∀ v f, m.read v = .ok f → ∀ x, part (f x) = part x

theorem keeps_optional {γ : Type} {part : α → γ} (h : ∀ b x, part (set b x) = part x) :
    (optional name read write get set).Keeps part := by
  intro v f hf x
  obtain ⟨b, -, rfl⟩ := Except.map_eq_ok_iff.1 hf
  exact h b x

end Member

namespace Record

variable {α : Type} {r : Record α}

/-- What makes a value recoverable from the record written of it. -/
structure Recoverable (r : Record α) (x : α) : Prop where
  nodup : (r.members.map Member.name).Nodup
  /-- A member takes back what it wrote and leaves the other members alone. -/
  restores : ∀ m ∈ r.members, ∀ v, m.write x = some v → ∃ f, m.read v.canonical = .ok f ∧
    ∀ n ∈ r.members, ∀ y, n.write (f y) = if n.name = m.name then n.write x else n.write y
  /-- A member is left out only where it has its default. -/
  omits : ∀ m ∈ r.members, m.write x = none → m.required = false ∧ m.write r.blank = none
  ext : ∀ y, (∀ m ∈ r.members, m.write y = m.write x) → y = x

/-- The members of a written record, sorted. -/
def sorted (r : Record α) (x : α) : Members :=
  .ofList (Json.canonicalMembers (r.members.filterMap fun m => (m.write x).map fun v => (m.name, v)))

theorem canonical_write (r : Record α) (x : α) : (r.write x).canonical = .obj (r.sorted x) := by
  rw [write, Json.canonical, sorted]

theorem sorted_eq (r : Record α) (x : α) :
    r.sorted x = Members.ofList (r.members.filterMap fun m =>
      ((m.write x).map Json.canonical).map fun v => (m.name, v)) := by
  rw [sorted, Json.canonicalMembers_eq_map, List.map_filterMap]
  simp only [Option.map_map, Function.comp_def]

/-- Members in the same normal form make records in the same normal form. -/
theorem canonical_write_congr {x y : α}
    (h : ∀ m ∈ r.members, (m.write x).map Json.canonical = (m.write y).map Json.canonical) :
    (r.write x).canonical = (r.write y).canonical := by
  rw [canonical_write, canonical_write, sorted_eq, sorted_eq]
  refine congrArg (fun ms => Json.obj (Members.ofList ms)) (List.filterMap_congr fun m hm => ?_)
  rw [h m hm]

theorem mem_sorted {x : α} {n : String × Json} (h : n ∈ r.sorted x) :
    ∃ m ∈ r.members, ∃ v, m.write x = some v ∧ n = (m.name, v.canonical) := by
  obtain ⟨n, hmem, rfl⟩ := Json.mem_ofList_canonicalMembers h
  obtain ⟨m, hm, hv⟩ := List.mem_filterMap.1 hmem
  obtain ⟨v, hw, rfl⟩ := Option.map_eq_some_iff.1 hv
  exact ⟨m, hm, v, hw, rfl⟩

theorem get?_sorted_ne_none {x : α} {m : Member α} {v : Json} (hm : m ∈ r.members)
    (hv : m.write x = some v) : (r.sorted x).get? m.name ≠ none := by
  intro h
  rw [sorted, Members.get?_ofList, List.lookup_eq_none_iff] at h
  have hmem : (m.name, v) ∈ r.members.filterMap fun m => (m.write x).map fun v => (m.name, v) :=
    List.mem_filterMap.2 ⟨m, hm, by rw [hv]; rfl⟩
  have hne := h (m.name, v.canonical) (List.mem_reverse.2 (by
    rw [Json.canonicalMembers_eq_map]
    exact List.mem_map.2 ⟨_, hmem, rfl⟩))
  simp at hne

theorem find?_name {ms : List (Member α)} (h : (ms.map Member.name).Nodup) {m : Member α}
    (hm : m ∈ ms) : ms.find? (fun n => n.name = m.name) = some m := by
  induction ms with
  | nil => cases hm
  | cons n ms ih =>
    rw [List.map_cons, List.nodup_cons] at h
    obtain rfl | hm := List.mem_cons.1 hm
    · exact List.find?_cons_of_pos (by simp)
    · have hne : n.name ≠ m.name := fun heq => h.1 (heq ▸ List.mem_map_of_mem hm)
      rw [List.find?_cons_of_neg (by simpa using hne), ih h.2 hm]

/-- A member that is found under a key has it as its name. -/
theorem mem_of_find? {ms : List (Member α)} {key : String} {m : Member α}
    (h : ms.find? (fun n => n.name = key) = some m) : m ∈ ms ∧ m.name = key :=
  ⟨List.mem_of_find?_eq_some h, by simpa using List.find?_some h⟩

/-- A member that is written stands in the sorted record. -/
theorem get?_sorted (h : (r.members.map Member.name).Nodup) {x : α} {m : Member α} {v : Json}
    (hm : m ∈ r.members) (hv : m.write x = some v) :
    (r.sorted x).get? m.name = some v.canonical := by
  obtain ⟨u, hu⟩ := Option.ne_none_iff_exists'.1 (get?_sorted_ne_none hm hv)
  obtain ⟨n, hn, w, hw, heq⟩ := mem_sorted (Members.mem_of_get? hu)
  obtain ⟨hname, rfl⟩ := Prod.mk.inj heq
  have hfound := find?_name h hn
  rw [← hname, find?_name h hm] at hfound
  cases hfound
  rw [hv] at hw
  cases hw
  exact hu

/-! ## Reading the members of an object -/

theorem readMember_optional {β : Type} {name : String} {read : Json → Except ShapeFault β}
    {write : β → Option Json} {get : α → β} {set : β → α → α}
    (h : (r.members.find? fun m => m.name = name) = some (.optional name read write get set))
    (x : α) (value : Json) : r.readMember x name value = (read value).map fun y => set y x := by
  unfold readMember
  rw [h]
  simp only [Member.read_optional]
  cases read value <;> rfl

/-- A value is read as the member of its key says, and passed over if there is none. -/
theorem readMember_cases {x y : α} {key : String} {value : Json}
    (h : r.readMember x key value = .ok y) :
    (∃ m f, (r.members.find? fun m => m.name = key) = some m ∧ m.read value = .ok f ∧ y = f x) ∨
      (r.members.find? fun m => m.name = key) = none ∧ y = x := by
  unfold readMember at h
  split at h
  · next m hm =>
    obtain ⟨f, hf, rfl⟩ := Except.map_eq_ok_iff.1 h
    exact .inl ⟨m, f, hm, hf, rfl⟩
  · next hnone => exact .inr ⟨hnone, (Except.ok.inj h).symm⟩

theorem readMember_keeps {β : Type} {name : String} {part : α → β}
    (h : ∀ m ∈ r.members, m.name ≠ name → m.Keeps part) {key : String} (hkey : key ≠ name)
    {x y : α} {value : Json} (hread : r.readMember x key value = .ok y) : part y = part x := by
  obtain ⟨m, f, hfind, hf, rfl⟩ | ⟨-, rfl⟩ := readMember_cases hread
  · obtain ⟨hm, rfl⟩ := mem_of_find? hfind
    exact h m hm hkey value f hf x
  · rfl

/-- A part of a record that one member sets and no other one changes is read from the last value under
the key of that member.  Where there is none the part is as `absent` would be read. -/
theorem part_of_readMembers {β : Type} {name : String} {read : Json → Except ShapeFault β}
    {write : β → Option Json} {get : α → β} {set : β → α → α}
    (hmember : (r.members.find? fun m => m.name = name) =
      some (.optional name read write get set))
    (hset : ∀ b x, get (set b x) = b)
    (hothers : ∀ m ∈ r.members, m.name ≠ name → m.Keeps get)
    {x y : α} {ms : Members} {absent : Json} (habsent : read absent = .ok (get x))
    (h : r.readMembers x ms = .ok y) :
    read (((Members.ofList ms).get? name).getD absent) = .ok (get y) := by
  induction ms generalizing x absent with
  | nil =>
    cases h
    exact habsent
  | cons m ms ih =>
    obtain ⟨key, v⟩ := m
    rw [readMembers, List.foldlM_cons] at h
    obtain ⟨z, hm, hz⟩ := Except.bind_eq_ok_iff.1 h
    rw [Members.get?_ofList_cons]
    by_cases hkey : name = key
    · subst hkey
      rw [readMember_optional hmember] at hm
      obtain ⟨b, hb, rfl⟩ := Except.map_eq_ok_iff.1 hm
      have hpresent : read v = .ok (get (set b x)) := by rw [hb, hset]
      have hrest := ih hpresent hz
      rw [if_pos rfl]
      cases hlast : (Members.ofList ms).get? name <;> simpa [hlast] using hrest
    · have hkeep : get z = get x := readMember_keeps hothers (Ne.symm hkey) hm
      rw [if_neg hkey, Option.or_none]
      exact ih (by rw [habsent, hkeep]) hz

/-- Where no member is required an object is read member by member. -/
theorem read_obj (h : ∀ m ∈ r.members, m.required = false) (ms : Members) :
    r.read (.obj ms) = r.readMembers r.blank ms := by
  have hmissing : r.missing? ms = none := by
    unfold missing?
    rw [Option.map_eq_none_iff, List.find?_eq_none]
    intro m hm
    simp [h m hm]
  rw [read, hmissing]
  cases r.readMembers r.blank ms <;> rfl

namespace Recoverable

/-- The members that have been read are those of the written record, the others are untouched. -/
theorem readMembers {x : α} (h : r.Recoverable x) {ms : Members} (y : α)
    (hms : ∀ n ∈ ms, ∃ m ∈ r.members, ∃ v, m.write x = some v ∧ n = (m.name, v.canonical)) :
    ∃ z, r.readMembers y ms = .ok z ∧
      ∀ m ∈ r.members, m.write z = if m.name ∈ ms.map Prod.fst then m.write x else m.write y := by
  induction ms generalizing y with
  | nil => exact ⟨y, rfl, fun m hm => by simp⟩
  | cons n ms ih =>
    obtain ⟨m, hm, v, hv, rfl⟩ := hms n List.mem_cons_self
    obtain ⟨f, hread, hf⟩ := h.restores m hm v hv
    obtain ⟨z, hz, hwrite⟩ := ih (f y) fun n hn => hms n (List.mem_cons_of_mem _ hn)
    refine ⟨z, ?_, fun k hk => ?_⟩
    · have hmember : r.readMember y m.name v.canonical = .ok (f y) := by
        rw [readMember, find?_name h.nodup hm]
        simp only [hread]
        rfl
      rw [Record.readMembers, List.foldlM_cons, hmember]
      exact hz
    · rw [hwrite k hk, hf k hk, List.map_cons]
      by_cases hmem : k.name ∈ ms.map Prod.fst
      · rw [if_pos hmem, if_pos (List.mem_cons_of_mem _ hmem)]
      · simp only [List.mem_cons, hmem, or_false, if_false]

theorem missing? {x : α} (h : r.Recoverable x) : r.missing? (r.sorted x) = none := by
  unfold Record.missing?
  rw [Option.map_eq_none_iff, List.find?_eq_none]
  intro m hm
  rcases hv : m.write x with _ | v
  · simp [(h.omits m hm hv).1]
  · simp [get?_sorted_ne_none hm hv]

/-- A value is read back from the sorted form of the record written of it. -/
theorem read_canonical {x : α} (h : r.Recoverable x) : r.read (r.write x).canonical = .ok x := by
  obtain ⟨z, hz, hwrite⟩ := h.readMembers r.blank fun n hn => mem_sorted hn
  have hzx : z = x := by
    apply h.ext z
    intro m hm
    rw [hwrite m hm]
    split_ifs with hmem
    · rfl
    · rcases hv : m.write x with _ | v
      · exact (h.omits m hm hv).2
      · obtain ⟨u, hu⟩ := Option.ne_none_iff_exists'.1 (get?_sorted_ne_none hm hv)
        exact absurd (List.mem_map_of_mem (Members.mem_of_get? hu)) hmem
  rw [canonical_write, read, hz]
  simp only [bind, Except.bind, h.missing?, hzx]

end Recoverable

variable (h : ∀ x, r.Recoverable x)
include h

theorem asList_canonical (xs : List α) :
    Json.asList r.read (Json.arr (xs.map r.write)).canonical = .ok xs :=
  Json.asList_canonical fun x _ => (h x).read_canonical

theorem orBlank_asList (xs : List α) :
    Json.orBlank [] (Json.asList r.read) (Json.arr (xs.map r.write)).canonical = .ok xs :=
  Json.orBlank_asList fun x _ => (h x).read_canonical

theorem write_injective : Function.Injective r.write :=
  Except.injective_of_ok (g := fun v => r.read v.canonical) fun x => (h x).read_canonical

theorem map_write_inj {xs ys : List α} : xs.map r.write = ys.map r.write ↔ xs = ys :=
  (List.map_injective_iff.2 (write_injective h)).eq_iff

end Record

/-! ## Values of members -/

namespace Json

@[simp]
theorem orBlank_asText (s : String) : orBlank "" asText (str s).canonical = .ok s := by
  rw [canonical]
  rfl

@[simp]
theorem asBool_canonical (b : Bool) : asBool (bool b).canonical = .ok b := by
  rw [canonical]
  rfl

@[simp]
theorem asOption_asText (s : String) : asOption asText (str s).canonical = .ok (some s) := by
  rw [canonical]
  rfl

@[simp]
theorem asOption_asBool (b : Option Bool) :
    asOption asBool (b.elim null bool).canonical = .ok b := by
  cases b <;> simp [canonical, asOption, asBool, Except.map]

@[simp]
theorem elim_bool_inj {b c : Option Bool} : b.elim null bool = c.elim null bool ↔ b = c := by
  cases b <;> cases c <;> simp

@[simp]
theorem map_str_inj {s t : Option String} : s.map str = t.map str ↔ s = t := by
  cases s <;> cases t <;> simp

end Json

end SiteScript
