import SiteScript.Proofs.Json.Acceptance

/-!
# Parts of records

The members of a record set parts of it that do not touch one another (`Record.Parts`).  Where the
parts make up the whole record, the order in which members are set does not matter, and a value that is
put under the key of a member changes what is read from an object as that member does
(`Parts.read_insert`).
-/

namespace SiteScript.Record

variable {α γ : Type} {r : Record α} {part : String → α → γ}

/-- The parts of a record, in the order of its members. -/
def parts (r : Record α) (part : String → α → γ) (x : α) : List γ :=
  r.members.map fun n => part n.name x

theorem parts_eq_iff {x y : α} :
    r.parts part x = r.parts part y ↔ ∀ n ∈ r.members, part n.name x = part n.name y :=
  List.map_inj_left

/-- What is written under a name. -/
def written (r : Record α) (name : String) (x : α) : Option Json :=
  (r.members.find? fun m => m.name = name).bind fun m => m.write x

theorem written_name (h : (r.members.map Member.name).Nodup) {m : Member α} (hm : m ∈ r.members)
    (x : α) : r.written m.name x = m.write x := by
  rw [written, find?_name h hm]
  rfl

theorem eq_of_parts_written (h : ∀ x, r.Recoverable x) {x y : α}
    (hxy : r.parts r.written x = r.parts r.written y) : x = y := by
  refine (h y).ext x fun m hm => ?_
  rw [← written_name (h y).nodup hm, ← written_name (h y).nodup hm]
  exact parts_eq_iff.1 hxy m hm

/-- No member is required, and a member that is read sets the part of its name, whatever this was
before, and leaves the parts of the other names alone. -/
structure Parts (r : Record α) (part : String → α → γ) : Prop where
  required : ∀ m ∈ r.members, m.required = false
  sets : ∀ m ∈ r.members, ∀ v f, m.read v = .ok f → ∀ n ∈ r.members, ∀ x y,
    part n.name (f x) = if n.name = m.name then part n.name (f y) else part n.name x

theorem readMember_find? {m : Member α} {key : String}
    (hm : (r.members.find? fun m => m.name = key) = some m) (x : α) (v : Json) :
    r.readMember x key v = (m.read v).map fun f => f x := by
  rw [readMember, hm]

/-- Whether a member is read, and the fault if it is not, does not depend on the record so far. -/
theorem readMember_error {key : String} {v : Json} {x : α} {e : ShapeFault}
    (h : r.readMember x key v = .error e) (y : α) : r.readMember y key v = .error e := by
  unfold readMember at h ⊢
  split at h
  · rw [Except.map_eq_error_iff] at h
    exact Except.map_eq_error_iff.2 h
  · cases h

/-- What stands under a key of a stored record is what is written under it. -/
theorem get?_sorted_eq (h : (r.members.map Member.name).Nodup) (key : String) (x : α) :
    (r.sorted x).get? key = (r.written key x).map Json.canonical := by
  cases hfind : r.members.find? fun m => m.name = key with
  | none =>
    rw [written, hfind, Option.bind_none, Option.map_none, Option.eq_none_iff_forall_ne_some]
    intro u hu
    obtain ⟨m, hm, v, -, heq⟩ := mem_sorted (Members.mem_of_get? hu)
    have hname := List.find?_eq_none.1 hfind m hm
    simp [(Prod.mk.inj heq).1] at hname
  | some m =>
    obtain ⟨hm, rfl⟩ := mem_of_find? hfind
    rw [written_name h hm]
    cases hw : m.write x with
    | some v => exact get?_sorted h hm hw
    | none =>
      rw [Option.map_none, Option.eq_none_iff_forall_ne_some]
      intro u hu
      obtain ⟨k, hk, v, hv, heq⟩ := mem_sorted (Members.mem_of_get? hu)
      have hsame := find?_name h hk
      rw [← (Prod.mk.inj heq).1, hfind] at hsame
      rw [← Option.some.inj hsame, hw] at hv
      cases hv

namespace Parts

variable (h : r.Parts part)

include h in
theorem part_readMember_of_ne {n : Member α} (hn : n ∈ r.members) {key : String} (hkey : n.name ≠ key)
    {v : Json} {x y : α} (hx : r.readMember x key v = .ok y) : part n.name y = part n.name x := by
  obtain ⟨m, f, hfind, hf, rfl⟩ | ⟨-, rfl⟩ := readMember_cases hx
  · obtain ⟨hm, rfl⟩ := mem_of_find? hfind
    rw [h.sets m hm v f hf n hn x x, if_neg hkey]
  · rfl

include h in
theorem part_readMember {n : Member α} (hn : n ∈ r.members) {v : Json} {w x y z : α}
    (hx : r.readMember x n.name v = .ok y) (hz : r.readMember z n.name v = .ok w) :
    part n.name y = part n.name w := by
  obtain ⟨m, f, hfind, hf, rfl⟩ | ⟨hnone, -⟩ := readMember_cases hx
  · obtain ⟨hm, hname⟩ := mem_of_find? hfind
    rw [readMember_find? hfind] at hz
    obtain ⟨g, hg, rfl⟩ := Except.map_eq_ok_iff.1 hz
    rw [hf, Except.ok.injEq] at hg
    rw [h.sets m hm v f hf n hn x z, if_pos hname.symm, hg]
  · have hne := List.find?_eq_none.1 hnone n hn
    simp at hne

/-! ## Values put under a key -/

variable (hext : ∀ x y, r.parts part x = r.parts part y → x = y)
include h hext

variable {m k : Member α} {v u : Json} {f g : α → α}

/-- Of two values that are read for one member the later one counts. -/
theorem set_set (hm : m ∈ r.members) (hf : m.read v = .ok f) (hk : k ∈ r.members)
    (hg : k.read u = .ok g) (hname : m.name = k.name) (x : α) : f (g x) = f x := by
  refine hext _ _ (parts_eq_iff.2 fun n hn => ?_)
  rw [h.sets m hm v f hf n hn (g x) x]
  split_ifs with hnm
  · rfl
  · rw [h.sets k hk u g hg n hn x x, if_neg (hname ▸ hnm), h.sets m hm v f hf n hn x x, if_neg hnm]

/-- Two members can be set in either order. -/
theorem set_comm (hm : m ∈ r.members) (hf : m.read v = .ok f) (hk : k ∈ r.members)
    (hg : k.read u = .ok g) (hname : m.name ≠ k.name) (x : α) : f (g x) = g (f x) := by
  refine hext _ _ (parts_eq_iff.2 fun n hn => ?_)
  rw [h.sets m hm v f hf n hn (g x) x, h.sets k hk u g hg n hn (f x) x]
  split_ifs with hnm hnk
  · exact absurd (hnm.symm.trans hnk) hname
  · rfl
  · rw [h.sets k hk u g hg n hn x x, if_pos ‹_›]
  · rw [h.sets k hk u g hg n hn x x, if_neg ‹_›, h.sets m hm v f hf n hn x x, if_neg hnm]

variable (hm : m ∈ r.members) (hf : m.read v = .ok f)
include hm hf

/-- A member can be set before or after the members of other names are read. -/
theorem readMembers_set {ms : Members} (hms : m.name ∉ ms.map Prod.fst) {x y : α}
    (hy : r.readMembers x ms = .ok y) : r.readMembers (f x) ms = .ok (f y) := by
  induction ms generalizing x with
  | nil =>
    cases hy
    rfl
  | cons n ms ih =>
    rw [List.map_cons, List.mem_cons, not_or] at hms
    rw [readMembers, List.foldlM_cons] at hy ⊢
    obtain ⟨z, hz, hy⟩ := Except.bind_eq_ok_iff.1 hy
    refine Except.bind_eq_ok_iff.2 ⟨f z, ?_, ih hms.2 hy⟩
    obtain ⟨k, g, hfind, hg, rfl⟩ | ⟨hnone, rfl⟩ := readMember_cases hz
    · obtain ⟨hk, hname⟩ := mem_of_find? hfind
      rw [readMember_find? hfind, hg, h.set_comm hext hm hf hk hg (hname ▸ hms.1)]
      rfl
    · rw [readMember, hnone]

/-- A value that is put under the key of a member changes what is read as that member does. -/
theorem readMembers_insert (hfind : (r.members.find? fun k => k.name = m.name) = some m)
    {ms : Members} (hms : ms.Sorted) {x y : α} (hy : r.readMembers x ms = .ok y) :
    r.readMembers x (ms.insert m.name v) = .ok (f y) := by
  have hread (x : α) : r.readMember x m.name v = .ok (f x) := by
    rw [readMember_find? hfind, hf]
    rfl
  induction ms generalizing x with
  | nil =>
    cases hy
    rw [Members.insert, readMembers, List.foldlM_cons, hread]
    rfl
  | cons n ms ih =>
    obtain ⟨key, u⟩ := n
    obtain ⟨hlt, hms⟩ := List.pairwise_cons.1 hms
    rw [Members.insert]
    split_ifs with hkey hbefore
    · rw [readMembers, List.foldlM_cons] at hy ⊢
      obtain ⟨z, hz, hy⟩ := Except.bind_eq_ok_iff.1 hy
      rw [← hkey, readMember_find? hfind] at hz
      obtain ⟨g, hg, rfl⟩ := Except.map_eq_ok_iff.1 hz
      have habsent : m.name ∉ ms.map Prod.fst := by
        rintro hmem
        obtain ⟨n, hn, hname⟩ := List.mem_map.1 hmem
        exact (hlt n hn).ne (hkey.symm.trans hname.symm)
      refine Except.bind_eq_ok_iff.2 ⟨f x, hread x, ?_⟩
      rw [← h.set_set hext hm hf hm hg rfl]
      exact h.readMembers_set hext hm hf habsent hy
    · have habsent : m.name ∉ ((key, u) :: ms).map Prod.fst := by
        rw [List.map_cons, List.mem_cons, not_or]
        refine ⟨hkey, fun hmem => ?_⟩
        obtain ⟨n, hn, hname⟩ := List.mem_map.1 hmem
        exact (hbefore.trans (hlt n hn)).ne hname.symm
      rw [readMembers, List.foldlM_cons]
      exact Except.bind_eq_ok_iff.2 ⟨f x, hread x, h.readMembers_set hext hm hf habsent hy⟩
    · rw [readMembers, List.foldlM_cons] at hy ⊢
      obtain ⟨z, hz, hy⟩ := Except.bind_eq_ok_iff.1 hy
      exact Except.bind_eq_ok_iff.2 ⟨z, hz, ih hms hy⟩

/-- A value that is put under the key of a member changes the record that is read as that member
does. -/
theorem read_insert (hfind : (r.members.find? fun k => k.name = m.name) = some m) {ms : Members}
    (hms : ms.Sorted) {x : α} (hx : r.read (.obj ms) = .ok x) :
    r.read (.obj (ms.insert m.name v)) = .ok (f x) := by
  rw [r.read_obj h.required] at hx ⊢
  exact h.readMembers_insert hext hm hf hfind hms hx

end Parts

/-- What is stored of a record after a member was set: the value that the member writes is put under
its key. -/
theorem Parts.sorted_insert (h : r.Parts r.written) (hnodup : (r.members.map Member.name).Nodup)
    {m : Member α} (hm : m ∈ r.members) {v : Json} {f : α → α} (hf : m.read v = .ok f) {x : α} {w : Json}
    (hw : m.write (f x) = some w) :
    (r.sorted x).insert m.name w.canonical = r.sorted (f x) := by
  have hsorted (x : α) : (r.sorted x).Sorted := Members.sorted_ofList _
  refine ((hsorted x).insert m.name w.canonical).ext (hsorted (f x)) fun key => ?_
  rw [Members.get?_insert, get?_sorted_eq hnodup, get?_sorted_eq hnodup]
  split_ifs with hkey
  · rw [hkey, written_name hnodup hm, hw]
    rfl
  · cases hfind : r.members.find? fun n => n.name = key with
    | none => simp only [written, hfind, Option.bind_none]
    | some n =>
      obtain ⟨hn, rfl⟩ := mem_of_find? hfind
      rw [h.sets m hm v f hf n hn x x, if_neg hkey]

end SiteScript.Record
