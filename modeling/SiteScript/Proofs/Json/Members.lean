import Mathlib.Data.String.Basic
import Mathlib.Tactic.SplitIfs
import SiteScript.Json.Members

/-!
# Sorted members

`Members.ofList` answers sorted members that hold, under every key, the last value that the list has
for it (`sorted_ofList`, `get?_ofList`).  Sorted members are determined by what they hold
(`Sorted.ext`), so they are their own normal form, and so is `Json.canonical` of any value
(`canonical_canonical`).
-/

namespace SiteScript

namespace Members

/-! ## Looking up -/

theorem get?_cons (k : String) (v : Json) (ms : Members) (key : String) :
    get? ((k, v) :: ms) key = if key = k then some v else get? ms key := by
  unfold get?
  rw [List.lookup_cons]
  by_cases h : key = k
  · rw [if_pos h, beq_iff_eq.2 h]
  · rw [if_neg h, beq_eq_false_iff_ne.2 h]

theorem get?_insert (key : String) (value : Json) (ms : Members) (k : String) :
    get? (insert key value ms) k = if k = key then some value else get? ms k := by
  induction ms with
  | nil => rw [insert, get?_cons]
  | cons m ms ih =>
    obtain ⟨l, v⟩ := m
    unfold insert
    by_cases hl : key = l
    · subst hl
      rw [if_pos rfl, get?_cons, get?_cons]
      by_cases hk : k = key <;> simp [hk]
    · rw [if_neg hl]
      by_cases hlt : key < l
      · rw [if_pos hlt, get?_cons]
      · rw [if_neg hlt, get?_cons, get?_cons, ih]
        by_cases hk : k = l
        · subst hk
          simp [Ne.symm hl]
        · simp [hk]

/-- Of two values that are put under one key the later one stays. -/
theorem insert_insert (key : String) (v w : Json) (ms : Members) :
    insert key v (insert key w ms) = insert key v ms := by
  induction ms with
  | nil => simp [insert]
  | cons m ms ih =>
    obtain ⟨k, u⟩ := m
    by_cases hk : key = k
    · simp [insert, hk]
    · by_cases hlt : key < k
      · simp [insert, hk, hlt]
      · simp [insert, hk, hlt, ih]

theorem insert_comm_of_lt {k l : String} (h : k < l) (v w : Json) (ms : Members) :
    insert k v (insert l w ms) = insert l w (insert k v ms) := by
  have hlk : ¬ l < k := lt_asymm h
  induction ms with
  | nil => simp [insert, h, h.ne, h.ne', hlk]
  | cons m ms ih =>
    obtain ⟨a, u⟩ := m
    obtain hla | rfl | hal := lt_trichotomy l a
    · have hka : k < a := h.trans hla
      simp [insert, h, h.ne, h.ne', hlk, hla, hla.ne, hka, hka.ne]
    · simp [insert, h, h.ne, h.ne', hlk]
    · have hla : ¬ l < a := lt_asymm hal
      obtain hka | rfl | hak := lt_trichotomy k a
      · simp [insert, h.ne', hlk, hal.ne', hla, hka, hka.ne]
      · simp [insert, h.ne', hlk]
      · simp [insert, hal.ne', hla, hak.ne', lt_asymm hak, ih]

/-- Values under different keys can be put in either order. -/
theorem insert_comm {k l : String} (h : k ≠ l) (v w : Json) (ms : Members) :
    insert k v (insert l w ms) = insert l w (insert k v ms) := by
  obtain hkl | hlk := lt_or_gt_of_ne h
  · exact insert_comm_of_lt hkl v w ms
  · exact (insert_comm_of_lt hlk w v ms).symm

theorem get?_foldl_insert (ms acc : Members) (k : String) :
    get? (ms.foldl (fun sorted m => insert m.1 m.2 sorted) acc) k =
      (ms.reverse.lookup k).or (get? acc k) := by
  induction ms generalizing acc with
  | nil => rfl
  | cons m ms ih =>
    obtain ⟨l, v⟩ := m
    have hlast : [(l, v)].lookup k = if k = l then some v else none := get?_cons l v [] k
    rw [List.foldl_cons, ih, get?_insert, List.reverse_cons, List.lookup_append, hlast,
      Option.or_assoc]
    by_cases h : k = l <;> simp [h]

/-- Of several values under one key the last one counts. -/
theorem get?_ofList (ms : Members) (k : String) : get? (ofList ms) k = ms.reverse.lookup k := by
  rw [ofList, get?_foldl_insert]
  exact Option.or_none

theorem get?_ofList_cons (m : String × Json) (ms : Members) (k : String) :
    get? (ofList (m :: ms)) k = (get? (ofList ms) k).or (if k = m.1 then some m.2 else none) := by
  rw [get?_ofList, get?_ofList, List.reverse_cons, List.lookup_append]
  exact congrArg _ (get?_cons m.1 m.2 [] k)

theorem get?_filter (p : String → Bool) (ms : Members) (k : String) :
    get? (ms.filter fun m => p m.1) k = if p k then get? ms k else none := by
  induction ms with
  | nil => simp [get?]
  | cons m ms ih =>
    obtain ⟨l, v⟩ := m
    rw [List.filter_cons, get?_cons]
    by_cases hl : p l = true
    · rw [if_pos hl, get?_cons, ih]
      by_cases hk : k = l
      · subst hk
        simp [hl]
      · simp [hk]
    · rw [if_neg hl, ih]
      by_cases hk : k = l
      · subst hk
        simp [hl]
      · simp [hk]

theorem mem_of_get? {ms : Members} {k : String} {v : Json} (h : get? ms k = some v) : (k, v) ∈ ms := by
  induction ms with
  | nil => cases h
  | cons m ms ih =>
    obtain ⟨l, u⟩ := m
    rw [get?_cons] at h
    split_ifs at h with hk
    · cases h
      rw [hk]
      exact List.mem_cons_self
    · exact List.mem_cons_of_mem _ (ih h)

/-! ## Sorting -/

theorem mem_insert {key : String} {value : Json} {ms : Members} {m : String × Json}
    (h : m ∈ insert key value ms) : m = (key, value) ∨ m ∈ ms := by
  induction ms with
  | nil => exact .inl (List.mem_singleton.1 h)
  | cons n ms ih =>
    obtain ⟨l, v⟩ := n
    rw [insert] at h
    split_ifs at h with hl hlt
    · exact (List.mem_cons.1 h).imp_right (List.mem_cons_of_mem _)
    · exact List.mem_cons.1 h
    · obtain rfl | h := List.mem_cons.1 h
      · exact .inr List.mem_cons_self
      · exact (ih h).imp_right (List.mem_cons_of_mem _)

theorem Sorted.insert {ms : Members} (h : Sorted ms) (key : String) (value : Json) :
    Sorted (insert key value ms) := by
  induction ms with
  | nil => exact List.pairwise_singleton _ _
  | cons m ms ih =>
    obtain ⟨l, v⟩ := m
    obtain ⟨hl, hms⟩ := List.pairwise_cons.1 h
    rw [Members.insert]
    split_ifs with hk hlt
    · subst hk
      exact List.pairwise_cons.2 ⟨hl, hms⟩
    · refine List.pairwise_cons.2 ⟨fun n hn => ?_, h⟩
      obtain rfl | hn := List.mem_cons.1 hn
      · exact hlt
      · exact lt_trans hlt (hl n hn)
    · refine List.pairwise_cons.2 ⟨fun n hn => ?_, ih hms⟩
      obtain rfl | hn := mem_insert hn
      · exact lt_of_le_of_ne (le_of_not_gt hlt) (Ne.symm hk)
      · exact hl n hn

theorem sorted_ofList (ms : Members) : Sorted (ofList ms) := by
  have hfold (acc : Members) (h : Sorted acc) :
      Sorted (ms.foldl (fun sorted m => insert m.1 m.2 sorted) acc) := by
    induction ms generalizing acc with
    | nil => exact h
    | cons m ms ih => exact ih _ (h.insert m.1 m.2)
  exact hfold [] List.Pairwise.nil

theorem mem_foldl_insert {ms acc : Members} {m : String × Json}
    (h : m ∈ ms.foldl (fun sorted m => insert m.1 m.2 sorted) acc) : m ∈ ms ∨ m ∈ acc := by
  induction ms generalizing acc with
  | nil => exact .inr h
  | cons n ms ih =>
    obtain h | h := ih h
    · exact .inl (List.mem_cons_of_mem _ h)
    · obtain rfl | h := mem_insert h
      · exact .inl List.mem_cons_self
      · exact .inr h

theorem mem_ofList {ms : Members} {m : String × Json} (h : m ∈ ofList ms) : m ∈ ms :=
  (mem_foldl_insert h).resolve_right List.not_mem_nil

/-- Sorted members are determined by what they hold under each key. -/
theorem Sorted.ext {as bs : Members} (ha : Sorted as) (hb : Sorted bs)
    (h : ∀ k, get? as k = get? bs k) : as = bs := by
  have hnone {k : String} {ms : Members} (hlt : ∀ m ∈ ms, k < m.1) : get? ms k = none := by
    rcases hk : get? ms k with _ | v
    · rfl
    · exact absurd (hlt _ (mem_of_get? hk)) (lt_irrefl k)
  induction as generalizing bs with
  | nil =>
    cases bs with
    | nil => rfl
    | cons b bs =>
      have hk := h b.1
      rw [get?_cons, if_pos rfl] at hk
      cases hk
  | cons a as ih =>
    obtain ⟨k, v⟩ := a
    cases bs with
    | nil =>
      have hk := h k
      rw [get?_cons, if_pos rfl] at hk
      cases hk
    | cons b bs =>
      obtain ⟨l, u⟩ := b
      obtain ⟨hka, has⟩ := List.pairwise_cons.1 ha
      obtain ⟨hlb, hbs⟩ := List.pairwise_cons.1 hb
      -- The smaller of two different first keys would be missing on the other side.
      have hkl : k = l := by
        rcases lt_trichotomy k l with hlt | heq | hlt
        · have hk := h k
          rw [get?_cons, if_pos rfl, hnone (fun m hm => ?_)] at hk
          · cases hk
          · obtain rfl | hm := List.mem_cons.1 hm
            · exact hlt
            · exact lt_trans hlt (hlb m hm)
        · exact heq
        · have hl := h l
          rw [get?_cons (k := l), if_pos rfl, hnone (fun m hm => ?_)] at hl
          · cases hl
          · obtain rfl | hm := List.mem_cons.1 hm
            · exact hlt
            · exact lt_trans hlt (hka m hm)
      subst hkl
      have hv := h k
      rw [get?_cons, get?_cons, if_pos rfl, if_pos rfl] at hv
      cases hv
      refine congrArg _ (ih has hbs fun m => ?_)
      have hm := h m
      rw [get?_cons, get?_cons] at hm
      by_cases hmk : m = k
      · rw [hmk, hnone hka, hnone hlb]
      · rwa [if_neg hmk, if_neg hmk] at hm

theorem get?_of_mem {ms : Members} (h : (ms.map Prod.fst).Nodup) {m : String × Json} (hm : m ∈ ms) :
    get? ms m.1 = some m.2 := by
  induction ms with
  | nil => cases hm
  | cons n ms ih =>
    rw [List.map_cons, List.nodup_cons] at h
    rw [get?_cons]
    obtain rfl | hmem := List.mem_cons.1 hm
    · exact if_pos rfl
    · have hne : m.1 ≠ n.1 := fun heq => h.1 (heq ▸ List.mem_map_of_mem hmem)
      rw [if_neg hne, ih h.2 hmem]

theorem lookup_reverse_of_nodup {ms : Members} (h : (ms.map Prod.fst).Nodup) (k : String) :
    ms.reverse.lookup k = get? ms k := by
  induction ms with
  | nil => rfl
  | cons m ms ih =>
    obtain ⟨l, v⟩ := m
    rw [List.map_cons, List.nodup_cons] at h
    have hlast : [(l, v)].lookup k = if k = l then some v else none := get?_cons l v [] k
    rw [List.reverse_cons, List.lookup_append, ih h.2, get?_cons, hlast]
    by_cases hk : k = l
    · subst hk
      rcases hv : get? ms k with _ | u
      · simp
      · exact absurd (List.mem_map_of_mem (mem_of_get? hv)) h.1
    · simp [hk]

/-- Of keys that are all different each has the value that stands under it. -/
theorem get?_ofList_of_nodup {ms : Members} (h : (ms.map Prod.fst).Nodup) (k : String) :
    get? (ofList ms) k = get? ms k := by
  rw [get?_ofList, lookup_reverse_of_nodup h]

theorem Sorted.nodup {ms : Members} (h : Sorted ms) : (ms.map Prod.fst).Nodup := by
  rw [List.Nodup, List.pairwise_map]
  exact h.imp fun hlt => ne_of_lt hlt

/-- Sorted members are their own normal form. -/
theorem Sorted.ofList_eq {ms : Members} (h : Sorted ms) : ofList ms = ms :=
  (sorted_ofList ms).ext h (get?_ofList_of_nodup h.nodup)

end Members

namespace Json

/-! ## Normal forms of values -/

theorem canonicalItems_eq_map (xs : List Json) : canonicalItems xs = xs.map canonical := by
  induction xs with
  | nil => rw [canonicalItems, List.map_nil]
  | cons x xs ih => rw [canonicalItems, ih, List.map_cons]

theorem canonicalMembers_eq_map (ms : Members) :
    canonicalMembers ms = ms.map fun m => (m.1, m.2.canonical) := by
  induction ms with
  | nil => rw [canonicalMembers, List.map_nil]
  | cons m ms ih => rw [canonicalMembers, ih, List.map_cons]

theorem mem_ofList_canonicalMembers {ms : Members} {n : String × Json}
    (h : n ∈ Members.ofList (canonicalMembers ms)) : ∃ m ∈ ms, n = (m.1, m.2.canonical) := by
  have hn := Members.mem_ofList h
  rw [canonicalMembers_eq_map] at hn
  obtain ⟨m, hm, rfl⟩ := List.mem_map.1 hn
  exact ⟨m, hm, rfl⟩

theorem canonicalMembers_eq_self {ms : Members} (h : ∀ m ∈ ms, m.2.canonical = m.2) :
    canonicalMembers ms = ms := by
  induction ms with
  | nil => rw [canonicalMembers]
  | cons m ms ih =>
    rw [canonicalMembers, h m List.mem_cons_self, ih fun n hn => h n (List.mem_cons_of_mem _ hn)]

mutual

/-- Values in normal form are their own normal form. -/
theorem canonical_canonical : ∀ x : Json, x.canonical.canonical = x.canonical
  | null | bool _ | num _ | str _ => by simp only [canonical]
  | arr xs => by rw [canonical, canonical, canonicalItems_canonicalItems xs]
  | obj ms => by
    have hvalues : canonicalMembers (Members.ofList (canonicalMembers ms)) =
        Members.ofList (canonicalMembers ms) :=
      canonicalMembers_eq_self fun m hm => canonical_of_mem_canonicalMembers ms m (Members.mem_ofList hm)
    rw [canonical, canonical, hvalues, (Members.sorted_ofList _).ofList_eq]

theorem canonicalItems_canonicalItems : ∀ xs : List Json,
    canonicalItems (canonicalItems xs) = canonicalItems xs
  | [] => rfl
  | x :: xs => by
    rw [canonicalItems, canonicalItems, canonical_canonical x, canonicalItems_canonicalItems xs]

theorem canonical_of_mem_canonicalMembers : ∀ (ms : Members) (m : String × Json),
    m ∈ canonicalMembers ms → m.2.canonical = m.2
  | [], _, hm => nomatch hm
  | (k, x) :: ms, m, hm => by
    rw [canonicalMembers] at hm
    obtain rfl | hm := List.mem_cons.1 hm
    · exact canonical_canonical x
    · exact canonical_of_mem_canonicalMembers ms m hm

end

/-! ## Values in normal form -/

/-- The members of an object in normal form are sorted. -/
theorem sorted_of_canonical {ms : Members} (h : (obj ms).canonical = obj ms) : ms.Sorted := by
  rw [canonical, obj.injEq] at h
  rw [← h]
  exact Members.sorted_ofList _

/-- The values in an object in normal form are in normal form. -/
theorem canonical_of_get? {ms : Members} (h : (obj ms).canonical = obj ms) {key : String} {x : Json}
    (hx : ms.get? key = some x) : x.canonical = x := by
  rw [canonical, obj.injEq] at h
  have hmem := Members.mem_of_get? hx
  rw [← h] at hmem
  exact canonical_of_mem_canonicalMembers ms _ (Members.mem_ofList hmem)

/-- The items of an array in normal form are in normal form. -/
theorem canonical_of_mem {xs : List Json} (h : (arr xs).canonical = arr xs) {x : Json}
    (hx : x ∈ xs) : x.canonical = x := by
  rw [canonical, arr.injEq, canonicalItems_eq_map] at h
  rw [← h] at hx
  obtain ⟨y, -, rfl⟩ := List.mem_map.1 hx
  exact y.canonical_canonical

end Json

end SiteScript
