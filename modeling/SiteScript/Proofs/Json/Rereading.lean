import SiteScript.Proofs.Json.Record

/-!
# Values that are read and written again

Data are read from JSON in many forms and written in one.  A reader and a writer belong together if what
is written of a value that has been read is read as that value (`Json.Rereads`).  A record whose values
are all recoverable does so (`Record.rereads`); else what is recoverable has to be told from what is read
(`Record.rereads_of_read`), and a property of all that is read holds of the blank record and is kept by
every member (`Record.holds_of_read`).
-/

namespace SiteScript

namespace Json

/-- What is written of a value that has been read of JSON in normal form is read as that value again, and
written again it is the same. -/
def Rereads {α : Type} (read : Json → Except ShapeFault α) (write : α → Json) : Prop :=
  ∀ v x, v.canonical = v → read v = .ok x →
    ∃ y, read (write x).canonical = .ok y ∧ y = x ∧ write y = write x

theorem rereads_of {α : Type} {read : Json → Except ShapeFault α} {write : α → Json}
    (h : ∀ v x, v.canonical = v → read v = .ok x → read (write x).canonical = .ok x) :
    Rereads read write :=
  fun v x hv hx => ⟨x, h v x hv hx, rfl, rfl⟩

/-- The values in an object in normal form are in normal form. -/
theorem canonical_of_mem_obj {ms : Members} (h : (obj ms).canonical = obj ms) {m : String × Json}
    (hm : m ∈ ms) : m.2.canonical = m.2 :=
  canonical_of_get? h (Members.get?_of_mem (sorted_of_canonical h).nodup hm)

end Json

namespace Record

variable {α : Type} {r : Record α}

theorem rereads_of_read (h : ∀ v x, v.canonical = v → r.read v = .ok x → r.Recoverable x) :
    Json.Rereads r.read r.write :=
  Json.rereads_of fun v x hv hx => (h v x hv hx).read_canonical

theorem rereads (h : ∀ x, r.Recoverable x) : Json.Rereads r.read r.write :=
  rereads_of_read fun _ x _ _ => h x

section

variable {P : α → Prop}

theorem holds_of_readMembers
    (hset : ∀ m ∈ r.members, ∀ v f, v.canonical = v → m.read v = .ok f → ∀ x, P x → P (f x))
    {ms : Members} (hms : ∀ m ∈ ms, m.2.canonical = m.2) {x y : α} (hx : P x)
    (h : r.readMembers x ms = .ok y) : P y := by
  induction ms generalizing x with
  | nil =>
    cases h
    exact hx
  | cons n ms ih =>
    obtain ⟨hn, hms⟩ := List.forall_mem_cons.1 hms
    rw [readMembers, List.foldlM_cons] at h
    obtain ⟨z, hz, hrest⟩ := Except.bind_eq_ok_iff.1 h
    obtain ⟨m, f, hfind, hf, rfl⟩ | ⟨-, rfl⟩ := readMember_cases hz
    · exact ih hms (hset m (mem_of_find? hfind).1 n.2 f hn hf x hx) hrest
    · exact ih hms hx hrest

theorem holds_of_readItems {members : List (Member α)}
    (hset : ∀ m ∈ members, ∀ v f, v.canonical = v → m.read v = .ok f → ∀ x, P x → P (f x))
    {items : List Json} (hitems : ∀ i ∈ items, i.canonical = i) {taken : Nat} {x y : α} (hx : P x)
    (h : r.readItems x taken members items = .ok y) : P y := by
  induction members generalizing x taken items with
  | nil =>
    cases items with
    | nil =>
      cases h
      exact hx
    | cons i items => cases h
  | cons m members ih =>
    obtain ⟨hm, hmembers⟩ := List.forall_mem_cons.1 hset
    cases items with
    | nil =>
      rw [readItems] at h
      split_ifs at h
      exact ih hmembers hitems hx h
    | cons i items =>
      obtain ⟨hi, hitems⟩ := List.forall_mem_cons.1 hitems
      obtain ⟨f, hf, hrest⟩ := Except.bind_eq_ok_iff.1 h
      exact ih hmembers hitems (hm i f hi hf x hx) hrest

/-- What holds of the blank record and is kept by every member that is read holds of what is read, be it
from an object or from an array. -/
theorem holds_of_read (hblank : P r.blank)
    (hset : ∀ m ∈ r.members, ∀ v f, v.canonical = v → m.read v = .ok f → ∀ x, P x → P (f x))
    {v : Json} (hv : v.canonical = v) {x : α} (h : r.read v = .ok x) : P x := by
  cases v with
  | obj ms =>
    obtain ⟨y, hy, hrest⟩ := Except.bind_eq_ok_iff.1 h
    have hyx : y = x := by
      split at hrest
      · cases hrest
      · exact Except.ok.inj hrest
    rw [← hyx]
    exact holds_of_readMembers hset (fun m hm => Json.canonical_of_mem_obj hv hm) hblank hy
  | arr items =>
    exact holds_of_readItems hset (fun i hi => Json.canonical_of_mem hv hi) hblank h
  | _ => cases h

end

end Record

end SiteScript
