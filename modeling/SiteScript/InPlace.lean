import SiteScript.Fault

/-!
# Changes in place

An editor changes a definition where it stands.  `InPlace` is a change that may fail midway;
`InPlace.after` is for a caller who drops a definition whose change has failed.
-/

namespace SiteScript

/-- A change that is made to a state in place.  If it fails, what it has done so far stays done. -/
abbrev InPlace (σ : Type) : Type → Type :=
  ExceptT Fault (StateM σ)

namespace InPlace

variable {σ α β : Type}

/-- The state after a change, or why the change fails. -/
def after (change : InPlace σ α) (s : σ) : Except Fault σ :=
  match change.run s with
  | (.ok _, s) => .ok s
  | (.error fault, _) => .error fault

theorem run_bind (change : InPlace σ α) (next : α → InPlace σ β) (s : σ) :
    (change >>= next).run s =
      match change.run s with
      | (.ok x, s) => (next x).run s
      | (.error fault, s) => (.error fault, s) := by
  unfold ExceptT.run
  simp only [bind, ExceptT.bind, ExceptT.mk, StateT.bind, ExceptT.bindCont]
  rcases change s with ⟨_ | _, _⟩ <;> rfl

theorem run_get (s : σ) : (get : InPlace σ σ).run s = (.ok s, s) := rfl

theorem run_throw (fault : Fault) (s : σ) :
    (throw fault : InPlace σ α).run s = (.error fault, s) := rfl

theorem run_ofExcept (answer : Except Fault α) (s : σ) :
    (MonadExcept.ofExcept answer : InPlace σ α).run s = (answer, s) := by
  cases answer <;> rfl

end InPlace

end SiteScript
