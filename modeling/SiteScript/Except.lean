/-!
# Answers and faults

When a computation that may fail answers, and what it is then made of.
-/

namespace SiteScript.Except

variable {ε α β : Type}

theorem map_eq_ok_iff {f : α → β} {e : Except ε α} {y : β} :
    e.map f = .ok y ↔ ∃ x, e = .ok x ∧ f x = y := by
  cases e with
  | error e => simp [Except.map]
  | ok x => simp [Except.map]

theorem map_eq_error_iff {f : α → β} {e : Except ε α} {fault : ε} :
    e.map f = .error fault ↔ e = .error fault := by
  cases e <;> simp [Except.map]

theorem bind_eq_ok_iff {f : α → Except ε β} {e : Except ε α} {y : β} :
    (e >>= f) = .ok y ↔ ∃ x, e = .ok x ∧ f x = .ok y := by
  cases e <;> simp [bind, Except.bind]

/-- What a list is taken to comes from its items. -/
theorem exists_of_mem_mapM {f : α → Except ε β} {xs : List α} {ys : List β}
    (h : xs.mapM f = .ok ys) {y : β} (hy : y ∈ ys) : ∃ x ∈ xs, f x = .ok y := by
  induction xs generalizing ys with
  | nil =>
    cases h
    cases hy
  | cons x xs ih =>
    rw [List.mapM_cons] at h
    obtain ⟨z, hz, hrest⟩ := bind_eq_ok_iff.1 h
    obtain ⟨zs, hzs, heq⟩ := bind_eq_ok_iff.1 hrest
    cases heq
    obtain rfl | hy := List.mem_cons.1 hy
    · exact ⟨x, List.mem_cons_self, hz⟩
    · obtain ⟨w, hw, hfw⟩ := ih hzs hy
      exact ⟨w, List.mem_cons_of_mem _ hw, hfw⟩

end SiteScript.Except
