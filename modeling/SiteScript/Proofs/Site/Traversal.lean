import Mathlib.Data.List.Forall2

/-!
# Lists that are taken item by item

A list is read or checked from its first item on, and the first item that is refused ends it.  The
outcome is a list that corresponds item by item (`mapM_eq_ok_iff`) or the fault of the first item
that is refused (`exists_refusedAt`).
-/

namespace SiteScript

variable {ε α β : Type} {f : α → Except ε β} {xs : List α}

/-- A list is taken if each of its items is, and the answers are those of the items. -/
theorem mapM_eq_ok_iff {ys : List β} :
    xs.mapM f = .ok ys ↔ List.Forall₂ (fun x y => f x = .ok y) xs ys := by
  induction xs generalizing ys with
  | nil =>
    rw [List.mapM_nil, List.forall₂_nil_left_iff]
    exact ⟨fun h => (Except.ok.inj h).symm, fun h => congrArg Except.ok h.symm⟩
  | cons x xs ih =>
    rw [List.mapM_cons, List.forall₂_cons_left_iff]
    cases hx : f x with
    | error e => simp [bind, Except.bind]
    | ok y =>
      cases hxs : xs.mapM f with
      | error e => simp [bind, Except.bind, ← ih, hxs]
      | ok zs =>
        simp only [bind, Except.bind, pure, Except.pure, Except.ok.injEq, ← ih, hxs]
        constructor
        · rintro rfl
          exact ⟨y, zs, rfl, rfl, rfl⟩
        · rintro ⟨_, _, rfl, rfl, rfl⟩
          rfl

/-- A list is taken if and only if each of its items is. -/
theorem exists_mapM_eq_ok_iff :
    (∃ ys, xs.mapM f = .ok ys) ↔ ∀ x ∈ xs, ∃ y, f x = .ok y := by
  simp only [mapM_eq_ok_iff]
  induction xs with
  | nil => simp
  | cons x xs ih =>
    simp only [List.forall₂_cons_left_iff, List.forall_mem_cons, ← ih]
    constructor
    · rintro ⟨_, y, ys, hx, hxs, -⟩
      exact ⟨⟨y, hx⟩, ys, hxs⟩
    · rintro ⟨⟨y, hx⟩, ys, hxs⟩
      exact ⟨_, y, ys, hx, hxs, rfl⟩

/-- Of a list that is taken each item is. -/
theorem exists_getElem?_of_mapM {ys : List β} (h : xs.mapM f = .ok ys) {i : Nat} {x : α}
    (hx : xs[i]? = some x) : ∃ y, ys[i]? = some y ∧ f x = .ok y := by
  rw [mapM_eq_ok_iff] at h
  induction h generalizing i with
  | nil => cases hx
  | cons hy _ ih =>
    cases i with
    | zero =>
      obtain rfl := Option.some.inj hx
      exact ⟨_, rfl, hy⟩
    | succ i => exact ih hx

/-- An item that takes the place of another decides whether the list is taken. -/
theorem mapM_set {ys : List β} (h : xs.mapM f = .ok ys) {i : Nat} (hi : i < xs.length) (x : α) :
    (xs.set i x).mapM f = (f x).map fun y => ys.set i y := by
  rw [mapM_eq_ok_iff] at h
  induction h generalizing i with
  | nil => exact absurd hi (Nat.not_lt_zero i)
  | @cons z y xs ys hz hxs ih =>
    cases i with
    | zero =>
      rw [List.set_cons_zero, List.mapM_cons, mapM_eq_ok_iff.2 hxs]
      cases f x <;> rfl
    | succ i =>
      rw [List.set_cons_succ, List.mapM_cons, hz, ih (Nat.lt_of_succ_lt_succ hi)]
      cases f x <;> rfl

/-- The items before an index are all taken, and the one at the index is refused. -/
structure RefusedAt (f : α → Except ε β) (xs : List α) (index : Nat) (fault : ε) :
    Prop where
  within : index < xs.length
  before : ∀ j (h : j < index), ∃ y, f xs[j] = .ok y
  refused : f xs[index] = .error fault

/-- What becomes of the answers does not matter. -/
theorem RefusedAt.map {γ : Type} {index : Nat} {fault : ε} (h : RefusedAt f xs index fault)
    (g : β → γ) : RefusedAt (fun x => (f x).map g) xs index fault where
  within := h.within
  before := by
    intro j hj
    obtain ⟨y, hy⟩ := h.before j hj
    exact ⟨g y, by rw [hy]; rfl⟩
  refused := by rw [h.refused]; rfl

theorem RefusedAt.cons {x : α} {y : β} (hx : f x = .ok y) {index : Nat} {fault : ε}
    (h : RefusedAt f xs index fault) : RefusedAt f (x :: xs) (index + 1) fault where
  within := Nat.succ_lt_succ h.within
  before := by
    intro j hj
    cases j with
    | zero => exact ⟨y, hx⟩
    | succ j => exact h.before j (Nat.lt_of_succ_lt_succ hj)
  refused := h.refused

/-- A list that is not taken reports the first item that is refused. -/
theorem exists_refusedAt {fault : ε} (h : xs.mapM f = .error fault) :
    ∃ index, RefusedAt f xs index fault := by
  induction xs with
  | nil => cases h
  | cons x xs ih =>
    rw [List.mapM_cons] at h
    cases hx : f x with
    | error e =>
      rw [hx] at h
      cases h
      exact ⟨0, Nat.succ_pos _, fun j hj => absurd hj (Nat.not_lt_zero j), hx⟩
    | ok y =>
      cases hxs : xs.mapM f with
      | error e =>
        simp only [hx, hxs, bind, Except.bind, Except.error.injEq] at h
        obtain ⟨index, hindex⟩ := ih (by rw [hxs, h])
        exact ⟨index + 1, hindex.cons hx⟩
      | ok ys => simp only [hx, hxs, bind, Except.bind, pure, Except.pure, reduceCtorEq] at h

/-- Up to the item that is refused a list is taken. -/
theorem RefusedAt.exists_mapM_take {index : Nat} {fault : ε}
    (h : RefusedAt f xs index fault) : ∃ ys, (xs.take index).mapM f = .ok ys := by
  obtain ⟨hindex, hbefore, -⟩ := h
  induction xs generalizing index with
  | nil => exact ⟨[], by rw [List.take_nil]; rfl⟩
  | cons x xs ih =>
    cases index with
    | zero => exact ⟨[], rfl⟩
    | succ index =>
      obtain ⟨y, hy⟩ := hbefore 0 (Nat.succ_pos index)
      obtain ⟨ys, hys⟩ := ih (Nat.lt_of_succ_lt_succ hindex) fun j hj =>
        hbefore (j + 1) (Nat.succ_lt_succ hj)
      rw [List.getElem_cons_zero] at hy
      refine ⟨y :: ys, ?_⟩
      rw [List.take_succ_cons, List.mapM_cons, hy, hys]
      rfl

end SiteScript
