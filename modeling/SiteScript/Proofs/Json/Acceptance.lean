import Mathlib.Data.List.Forall2
import SiteScript.Proofs.Json.Record
import SiteScript.Proofs.Site.Traversal

/-!
# Which values are read

Where no member of a record is required, an object is read if and only if every declared member that
it has is (`Record.exists_read_obj_iff`), and an array if and only if it has not too many items and
each of them is (`Record.exists_readItems_iff`).  Members that are not declared change nothing
(`Record.readMembers_filter`).  What is read of a member is the value under its key, or the item in
its place (`Record.part_of_readMembers`, `Record.part_of_readItems`).
-/

namespace SiteScript

theorem exists_map_eq_ok_iff {ε α β : Type} {f : α → β} {e : Except ε α} :
    (∃ y, e.map f = .ok y) ↔ ∃ x, e = .ok x := by
  cases e <;> simp [Except.map]

/-! ## Plain values -/

namespace Json

/-- Null or a string. -/
def IsText : Json → Prop
  | null | str _ => True
  | _ => False

/-- A boolean. -/
def IsFlag : Json → Prop
  | bool _ => True
  | _ => False

/-- Null or a boolean. -/
def IsChoice : Json → Prop
  | null | bool _ => True
  | _ => False

theorem exists_orBlank_asText_iff (x : Json) :
    (∃ s, orBlank "" asText x = .ok s) ↔ x.IsText := by
  cases x <;> simp [orBlank, asText, IsText]

theorem exists_asBool_iff (x : Json) : (∃ b, asBool x = .ok b) ↔ x.IsFlag := by
  cases x <;> simp [asBool, IsFlag]

theorem exists_asOption_asBool_iff (x : Json) :
    (∃ b, asOption asBool x = .ok b) ↔ x.IsChoice := by
  cases x <;> simp [asOption, asBool, Except.map, IsChoice]

theorem bool?_of_asOption {x : Option Json} {b : Option Bool}
    (h : asOption asBool (x.getD .null) = .ok b) : x.bind bool? = b := by
  cases x with
  | none =>
    cases h
    rfl
  | some x =>
    rw [Option.getD_some] at h
    cases x with
    | null | bool => cases h; rfl
    | _ => cases h

theorem bind_bool?_eq_some_iff {x : Option Json} {b : Bool} :
    x.bind bool? = some b ↔ x = some (.bool b) := by
  cases x with
  | none => simp
  | some x => cases x <;> simp [bool?]

theorem text?_of_orBlank {x : Option Json} {s : String}
    (h : orBlank "" asText (x.getD .null) = .ok s) : (x.bind text?).getD "" = s := by
  cases x with
  | none =>
    cases h
    rfl
  | some x =>
    rw [Option.getD_some] at h
    cases x with
    | null | str => cases h; rfl
    | _ => cases h

end Json

/-! ## Records -/

/-- A member that may be absent and is read from the values with some property. -/
structure Member.Takes {α : Type} (m : Member α) (p : Json → Prop) : Prop where
  required : m.required = false
  read : ∀ x, (∃ f, m.read x = .ok f) ↔ p x

namespace Member.Takes

theorem optional {α β : Type} {name : String} {read : Json → Except ShapeFault β}
    {write : β → Option Json} {get : α → β} {set : β → α → α} {p : Json → Prop}
    (h : ∀ x, (∃ y, read x = .ok y) ↔ p x) : (Member.optional name read write get set).Takes p where
  required := rfl
  read x := exists_map_eq_ok_iff.trans (h x)

theorem text {α : Type} {name : String} {get : α → String} {set : String → α → α} :
    (Member.text name get set).Takes Json.IsText :=
  optional Json.exists_orBlank_asText_iff

end Member.Takes

namespace Record

variable {α β : Type} {r : Record α}

/-- The names of the members of a record, and the values they are read from. -/
def Declares (r : Record α) (shapes : List (String × (Json → Prop))) : Prop :=
  List.Forall₂ (fun m a => m.name = a.1 ∧ m.Takes a.2) r.members shapes

theorem Declares.required {shapes : List (String × (Json → Prop))} (h : r.Declares shapes) :
    ∀ m ∈ r.members, m.required = false := by
  have hrequired := h.imp (S := fun m _ => m.required = false ∧ True) fun m a hm =>
    ⟨hm.2.required, trivial⟩
  exact ((List.forall₂_and_left _ _).1 hrequired).1

theorem Declares.names {shapes : List (String × (Json → Prop))} (h : r.Declares shapes) :
    r.members.map Member.name = shapes.map Prod.fst := by
  rw [← List.forall₂_eq_eq_eq, List.forall₂_map_left_iff, List.forall₂_map_right_iff]
  exact h.imp fun m a hm => hm.1

theorem exists_readMembers_iff (x : α) (ms : Members) :
    (∃ y, r.readMembers x ms = .ok y) ↔
      ∀ n ∈ ms, ∀ m, r.members.find? (fun m => m.name = n.1) = some m → ∃ f, m.read n.2 = .ok f := by
  induction ms generalizing x with
  | nil => exact ⟨fun _ => List.forall_mem_nil _, fun _ => ⟨x, rfl⟩⟩
  | cons n ms ih =>
    have hmember : (∃ y, r.readMember x n.1 n.2 = .ok y) ↔
        ∀ m, r.members.find? (fun m => m.name = n.1) = some m → ∃ f, m.read n.2 = .ok f := by
      unfold readMember
      cases r.members.find? (fun m => m.name = n.1) with
      | none => simp
      | some m => simp only [exists_map_eq_ok_iff, Option.some.injEq, forall_eq']
    rw [List.forall_mem_cons, ← hmember, readMembers, List.foldlM_cons]
    constructor
    · rintro ⟨z, hz⟩
      obtain ⟨y, hy, hrest⟩ := Except.bind_eq_ok_iff.1 hz
      exact ⟨⟨y, hy⟩, (ih y).1 ⟨z, hrest⟩⟩
    · rintro ⟨⟨y, hy⟩, hms⟩
      obtain ⟨z, hz⟩ := (ih y).2 hms
      exact ⟨z, Except.bind_eq_ok_iff.2 ⟨y, hy, hz⟩⟩

theorem exists_read_iff_of_declared {shapes : List (String × (Json → Prop))}
    {members : List (Member α)}
    (h : List.Forall₂ (fun m a => m.name = a.1 ∧ m.Takes a.2) members shapes)
    (hnames : (shapes.map Prod.fst).Nodup) (name : String) (x : Json) :
    (∀ m, members.find? (fun m => m.name = name) = some m → ∃ f, m.read x = .ok f) ↔
      ∀ p, (name, p) ∈ shapes → p x := by
  induction h with
  | nil => simp
  | @cons m a members shapes hm hrest ih =>
    obtain ⟨key, q⟩ := a
    obtain ⟨rfl, htakes⟩ := hm
    rw [List.map_cons, List.nodup_cons] at hnames
    by_cases hname : m.name = name
    · -- A later member of the same name would not be found.
      have hlater (p : Json → Prop) : (name, p) ∉ shapes := fun hp =>
        hnames.1 (List.mem_map.2 ⟨_, hp, hname.symm⟩)
      rw [List.find?_cons_of_pos (by simpa using hname)]
      simp [htakes.read, hname, hlater]
    · rw [List.find?_cons_of_neg (by simpa using hname), ih hnames.2]
      simp [Ne.symm hname]

/-- An object is read if and only if its declared members are. -/
theorem exists_read_obj_iff {shapes : List (String × (Json → Prop))} (h : r.Declares shapes)
    (hnames : (shapes.map Prod.fst).Nodup) (ms : Members) :
    (∃ x, r.read (.obj ms) = .ok x) ↔ ∀ n ∈ ms, ∀ p, (n.1, p) ∈ shapes → p n.2 := by
  simp only [r.read_obj h.required, exists_readMembers_iff, exists_read_iff_of_declared h hnames]

/-- An array is read if and only if there is a member for each of its items, and the items are. -/
theorem exists_readItems_iff {p : Json → Prop} {members : List (Member α)}
    (h : ∀ m ∈ members, m.Takes p) (x : α) (taken : Nat) (items : List Json) :
    (∃ y, r.readItems x taken members items = .ok y) ↔
      items.length ≤ members.length ∧ ∀ i ∈ items, p i := by
  induction members generalizing x taken items with
  | nil => cases items <;> simp [readItems]
  | cons m members ih =>
    obtain ⟨hm, hmembers⟩ := List.forall_mem_cons.1 h
    cases items with
    | nil =>
      have hnone := ih hmembers x taken []
      simpa [readItems, hm.required] using hnone
    | cons i items =>
      rw [readItems, List.forall_mem_cons, List.length_cons, List.length_cons,
        Nat.add_le_add_iff_right, ← hm.read]
      constructor
      · rintro ⟨y, hy⟩
        obtain ⟨f, hf, hrest⟩ := Except.bind_eq_ok_iff.1 hy
        obtain ⟨hlength, hitems⟩ := (ih hmembers _ _ _).1 ⟨y, hrest⟩
        exact ⟨hlength, ⟨f, hf⟩, hitems⟩
      · rintro ⟨hlength, ⟨f, hf⟩, hitems⟩
        obtain ⟨y, hy⟩ := (ih hmembers (f x) (taken + 1) items).2 ⟨hlength, hitems⟩
        exact ⟨y, Except.bind_eq_ok_iff.2 ⟨f, hf, hy⟩⟩

/-- Members that are not declared are passed over. -/
theorem readMembers_filter (declared : String → Bool)
    (h : ∀ m ∈ r.members, declared m.name = true) (x : α) (ms : Members) :
    r.readMembers x (ms.filter fun n => declared n.1) = r.readMembers x ms := by
  induction ms generalizing x with
  | nil => rfl
  | cons n ms ih =>
    rw [List.filter_cons]
    split_ifs with hn
    · simp only [readMembers, List.foldlM_cons] at ih ⊢
      exact bind_congr ih
    · have hnone : r.members.find? (fun m => m.name = n.1) = none := by
        rw [List.find?_eq_none]
        intro m hm hname
        rw [← of_decide_eq_true hname] at hn
        exact hn (h m hm)
      have hmember : r.readMember x n.1 n.2 = .ok x := by rw [readMember, hnone]
      rw [ih, readMembers, readMembers, List.foldlM_cons, hmember]
      rfl

/-! ## The parts of what is read -/

theorem readItems_nil {x y : α} {taken : Nat} {members : List (Member α)}
    (h : r.readItems x taken members [] = .ok y) : y = x := by
  induction members with
  | nil => exact (Except.ok.inj h).symm
  | cons m members ih =>
    rw [readItems] at h
    split_ifs at h
    exact ih h

theorem readItems_keeps {part : α → β} {members : List (Member α)}
    (hmembers : ∀ m ∈ members, m.Keeps part) {x y : α} {taken : Nat} {items : List Json}
    (h : r.readItems x taken members items = .ok y) : part y = part x := by
  induction members generalizing x taken items with
  | nil =>
    cases items with
    | nil => rw [← Except.ok.inj h]
    | cons i items => cases h
  | cons m members ih =>
    cases items with
    | nil => rw [readItems_nil h]
    | cons i items =>
      obtain ⟨hm, hrest⟩ := List.forall_mem_cons.1 hmembers
      obtain ⟨f, hf, hy⟩ := Except.bind_eq_ok_iff.1 h
      rw [ih hrest hy, hm i f hf]

/-- A part of a record that one member sets and no other one changes is read from the item in the
place of that member. -/
theorem part_of_readItems {name : String} {read : Json → Except ShapeFault β}
    {write : β → Option Json} {get : α → β} {set : β → α → α} {members : List (Member α)}
    (hnames : (members.map Member.name).Nodup) {place : Nat}
    (hmember : members[place]? = some (.optional name read write get set))
    (hset : ∀ b x, get (set b x) = b)
    (hothers : ∀ m ∈ members, m.name ≠ name → m.Keeps get)
    {x y : α} {taken : Nat} {items : List Json} {absent : Json}
    (habsent : read absent = .ok (get x))
    (h : r.readItems x taken members items = .ok y) :
    read (items[place]?.getD absent) = .ok (get y) := by
  induction members generalizing x taken items place with
  | nil => cases hmember
  | cons m members ih =>
    obtain ⟨hm, hrest⟩ := List.forall_mem_cons.1 hothers
    rw [List.map_cons, List.nodup_cons] at hnames
    cases items with
    | nil => rwa [readItems_nil h]
    | cons i items =>
      obtain ⟨f, hf, hy⟩ := Except.bind_eq_ok_iff.1 h
      cases place with
      | zero =>
        obtain rfl := Option.some.inj hmember
        obtain ⟨b, hb, rfl⟩ := Except.map_eq_ok_iff.1 hf
        have hkeeps : ∀ n ∈ members, n.Keeps get := fun n hn =>
          hrest n hn fun hname => hnames.1 (List.mem_map.2 ⟨n, hn, hname⟩)
        have hkeep : get y = get (set b x) := readItems_keeps hkeeps hy
        rw [hkeep, hset]
        exact hb
      | succ place =>
        rw [List.getElem?_cons_succ] at hmember
        have hname : m.name ≠ name := fun hname =>
          hnames.1 (List.mem_map.2 ⟨_, List.mem_of_getElem? hmember, hname.symm⟩)
        exact ih hnames.2 hmember hrest (by rw [habsent, hm hname i f hf]) hy

end Record

end SiteScript
