import Mathlib.Data.List.Basic
import SiteScript.Proofs.Json.Members
import SiteScript.Step.Picking

/-!
# Storing picks

A pick, or a switch of the container, changes a step definition in place.  `perform_eq` says what
becomes of it: it is refused and nothing is changed, or it has its whole effect.  So a field that
was found when the request was checked is found again when its key is replaced.
-/

namespace SiteScript

/-- Whether something is answered, and if not, why. -/
def Except.outcome {ε α : Type} (answer : Except ε α) : Except ε Unit :=
  answer.map fun _ => ()

@[simp]
theorem Json.items?_eq_some_iff {x : Json} {xs : List Json} : x.items? = some xs ↔ x = .arr xs := by
  cases x <;> simp [items?]

@[simp]
theorem Json.members?_eq_some_iff {x : Json} {ms : Members} :
    x.members? = some ms ↔ x = .obj ms := by
  cases x <;> simp [members?]

namespace StepDefinition

/-! ## Operations -/

/-- An operation of a picker on a step definition. -/
inductive PickOperation where
  | pick (target : PickTarget) (p : Pick)
  | scope (on : Bool)

/-- The change that an operation makes. -/
def PickOperation.change : PickOperation → InPlace StepDefinition Unit
  | .pick target p => storePick target p
  | .scope on => storeScoped on

/-- The answer of an operation, and the definition that it leaves behind. -/
def perform (d : StepDefinition) (op : PickOperation) : Except Fault Unit × StepDefinition :=
  op.change.run d

/-! ## What an operation does -/

/-- Whether an operation is accepted, and if not, why. -/
def PickOperation.check (d : StepDefinition) : PickOperation → Except Fault Unit
  | .pick target _ => Except.outcome (d.request target)
  | .scope _ => do
    let t ← d.type
    if t = .selector then .ok () else .error (.definition (.notScopable d.tag))

/-- The definition with a picked selector stored. -/
def withPick (d : StepDefinition) (target : PickTarget) (p : Pick) : StepDefinition :=
  match target with
  | .key => d.set "key" (.str p.selector)
  | .container => (d.set "container" (.str p.selector)).set "scoped" (.bool true)
  | .field index =>
    (((d.get? "fields").bind (rekey index p.selector)).map fun fields =>
      d.set "fields" fields).getD d

/-- The definition with the use of the container switched. -/
def withScoped (d : StepDefinition) (on : Bool) : StepDefinition :=
  if on then d.set "scoped" (.bool true)
  else (d.set "scoped" (.bool false)).set "container" (.str "")

/-- What an accepted operation leaves behind. -/
def PickOperation.effect (d : StepDefinition) : PickOperation → StepDefinition
  | .pick target p => d.withPick target p
  | .scope on => d.withScoped on

@[simp]
theorem get?_set (d : StepDefinition) (key : String) (value : Json) (k : String) :
    (d.set key value).get? k = if k = key then some value else d.get? k :=
  Members.get?_insert key value d.attributes k

@[simp]
theorem tag_set (d : StepDefinition) (key : String) (value : Json) :
    (d.set key value).tag = d.tag := rfl

@[simp]
theorem name_set (d : StepDefinition) (key : String) (value : Json) :
    (d.set key value).name = d.name := rfl

/-- The object that stands for the field at an index of the fields. -/
def fieldAt? (fields : Option Json) (index : Nat) : Option Members :=
  (fields.bind Json.items?).bind fun xs => (xs[index]?).bind Json.members?

theorem fieldAt?_eq_some_iff {fields : Option Json} {index : Nat} {ms : Members} :
    fieldAt? fields index = some ms ↔
      ∃ xs, fields = some (.arr xs) ∧ xs[index]? = some (.obj ms) := by
  simp [fieldAt?, Option.bind_eq_some_iff]

theorem field_eq (d : StepDefinition) (index : Nat) :
    d.field index = match fieldAt? (d.get? "fields") index with
      | some ms => .ok ms
      | none => .error (.definition (.noField index)) := rfl

/-- Whether steps of a type have a target. -/
def hasTarget : StepType → PickTarget → Bool
  | .click, .key | .select, .key | .formSelector, .key => true
  | .selector, .container => true
  | .scrape, .field _ | .selector, .field _ => true
  | _, _ => false

/-- Why the field that a target asks for is not found. -/
def checkField (fields : Option Json) : PickTarget → Except Fault Unit
  | .field index =>
    if (fieldAt? fields index).isSome then .ok () else .error (.definition (.noField index))
  | _ => .ok ()

theorem outcome_field (d : StepDefinition) (index : Nat) :
    Except.outcome (d.field index) = checkField (d.get? "fields") (.field index) := by
  rw [field_eq, checkField]
  cases fieldAt? (d.get? "fields") index <;> rfl

/-- What a request asks of a definition: that its type has the target, and that the field is there.
-/
def checkTarget (d : StepDefinition) (target : PickTarget) : Except Fault Unit := do
  let t ← d.type
  if hasTarget t target then checkField (d.get? "fields") target
  else .error (.definition (.notPickable t target))

theorem outcome_request (d : StepDefinition) (target : PickTarget) :
    Except.outcome (d.request target) = d.checkTarget target := by
  unfold request checkTarget
  cases d.type with
  | error fault => rfl
  | ok t =>
    cases target with
    | key => cases t <;> rfl
    | container => cases t <;> rfl
    | field index =>
      rw [← outcome_field]
      cases t with
      | scrape | selector =>
        simp only [bind, Except.bind]
        cases d.field index <;> rfl
      | click | select | form | formSelector => rfl

/-- A request for a field is accepted only where that field is found. -/
theorem exists_field_of_request {d : StepDefinition} {index : Nat} {r : PickRequest}
    (h : d.request (.field index) = .ok r) :
    ∃ ms, fieldAt? (d.get? "fields") index = some ms := by
  have hcheck := outcome_request d (.field index)
  rw [h] at hcheck
  simp only [checkTarget, checkField, bind, Except.bind] at hcheck
  split at hcheck
  · cases hcheck
  · split_ifs at hcheck with htarget hfield
    · exact Option.isSome_iff_exists.1 hfield
    all_goals cases hcheck

theorem rekey_eq {index : Nat} {xs : List Json} {ms : Members}
    (h : xs[index]? = some (.obj ms)) (key : String) : rekey index key (.arr xs) =
      some (.arr (xs.set index (.obj (Members.insert "key" (.str key) ms)))) := by
  simp [rekey, Json.items?, h, Json.members?]

/-! ## Changes in place -/

open InPlace

theorem run_put (d : StepDefinition) (key : String) (value : Json) :
    (put key value).run d = (.ok (), d.set key value) := rfl

/-- The key of a field that is found is replaced. -/
theorem run_putFieldKey {d : StepDefinition} {index : Nat} {ms : Members}
    (h : fieldAt? (d.get? "fields") index = some ms) (p : Pick) :
    (putFieldKey index p.selector).run d = (.ok (), d.withPick (.field index) p) := by
  obtain ⟨xs, hfields, hfield⟩ := fieldAt?_eq_some_iff.1 h
  have hrekey : (d.get? "fields").bind (rekey index p.selector) =
      some (.arr (xs.set index (.obj (Members.insert "key" (.str p.selector) ms)))) := by
    rw [hfields, Option.bind_some, rekey_eq hfield]
  simp only [putFieldKey, withPick, run_bind, run_get, hrekey, run_put, Option.map_some,
    Option.getD_some]

theorem run_storePick (d : StepDefinition) (target : PickTarget) (p : Pick) :
    (storePick target p).run d =
      match d.request target with
      | .ok _ => (.ok (), d.withPick target p)
      | .error fault => (.error fault, d) := by
  simp only [storePick, run_bind, run_get, run_ofExcept]
  cases hrequest : d.request target with
  | error fault => rfl
  | ok r =>
    cases target with
    | key => rfl
    | container => rfl
    | field index =>
      obtain ⟨ms, hfield⟩ := exists_field_of_request hrequest
      exact run_putFieldKey hfield p

theorem run_storeScoped (d : StepDefinition) (on : Bool) :
    (storeScoped on).run d =
      match PickOperation.check d (.scope on) with
      | .ok _ => (.ok (), d.withScoped on)
      | .error fault => (.error fault, d) := by
  simp only [storeScoped, run_bind, run_get, run_ofExcept, PickOperation.check]
  cases d.type with
  | error fault => rfl
  | ok t =>
    by_cases ht : t = .selector
    · simp only [ht, if_true, run_bind, run_put]
      cases on <;> rfl
    · simp only [if_neg ht, run_bind, run_get, run_throw]
      simp only [bind, Except.bind, if_neg ht]

/-- An operation is refused and changes nothing, or it has its whole effect. -/
theorem perform_eq (d : StepDefinition) (op : PickOperation) :
    d.perform op =
      match op.check d with
      | .ok _ => (.ok (), op.effect d)
      | .error fault => (.error fault, d) := by
  cases op with
  | scope on => exact run_storeScoped d on
  | pick target p =>
    refine (run_storePick d target p).trans ?_
    simp only [PickOperation.check, Except.outcome]
    cases d.request target <;> rfl

theorem answer_perform (d : StepDefinition) (op : PickOperation) :
    (d.perform op).1 = op.check d := by
  rw [perform_eq]
  cases op.check d <;> rfl

theorem perform_of_ok {d : StepDefinition} {op : PickOperation} (h : op.check d = .ok ()) :
    d.perform op = (.ok (), op.effect d) := by
  rw [perform_eq, h]

theorem perform_of_error {d : StepDefinition} {op : PickOperation} {fault : Fault}
    (h : op.check d = .error fault) : d.perform op = (.error fault, d) := by
  rw [perform_eq, h]

/-! ## What an effect leaves alone -/

/-- The selector that an operation picks for a target. -/
def PickOperation.selectorFor? (target : PickTarget) : PickOperation → Option String
  | .pick t p => if t = target then some p.selector else none
  | .scope _ => none

/-- What an operation that succeeds makes of a container and of the switch for its use. -/
def PickOperation.rescope (scope : Option Json × Option Json) :
    PickOperation → Option Json × Option Json
  | .pick .container p => (some (.str p.selector), some (.bool true))
  | .pick _ _ => scope
  | .scope true => (scope.1, some (.bool true))
  | .scope false => (some (.str ""), some (.bool false))

/-- A pick of a field changes at most the fields. -/
theorem withPick_field (d : StepDefinition) (index : Nat) (p : Pick) :
    d.withPick (.field index) p = d ∨
      ∃ fields, d.withPick (.field index) p = d.set "fields" fields := by
  simp only [withPick]
  cases (d.get? "fields").bind (rekey index p.selector) with
  | none => exact .inl rfl
  | some fields => exact .inr ⟨fields, rfl⟩

theorem header_effect (d : StepDefinition) (op : PickOperation) :
    (op.effect d).tag = d.tag ∧ (op.effect d).name = d.name := by
  cases op with
  | scope on => cases on <;> exact ⟨rfl, rfl⟩
  | pick target p =>
    cases target with
    | key | container => exact ⟨rfl, rfl⟩
    | field index =>
      obtain heq | ⟨fields, heq⟩ := d.withPick_field index p
      all_goals rw [PickOperation.effect, heq]
      · exact ⟨rfl, rfl⟩
      · exact ⟨tag_set d "fields" fields, name_set d "fields" fields⟩

theorem get?_effect_of_not_mem (d : StepDefinition) (op : PickOperation) {k : String}
    (h : k ∉ ["key", "container", "scoped", "fields"]) : (op.effect d).get? k = d.get? k := by
  simp only [List.mem_cons, List.not_mem_nil, or_false, not_or] at h
  obtain ⟨hkey, hcontainer, hscoped, hfields⟩ := h
  cases op with
  | scope on => cases on <;> simp [PickOperation.effect, withScoped, hcontainer, hscoped]
  | pick target p =>
    cases target with
    | key => simp [PickOperation.effect, withPick, hkey]
    | container => simp [PickOperation.effect, withPick, hcontainer, hscoped]
    | field index =>
      obtain heq | ⟨fields, heq⟩ := d.withPick_field index p
      all_goals simp [PickOperation.effect, heq, hfields]

theorem get?_key_effect (d : StepDefinition) (op : PickOperation) : (op.effect d).get? "key" =
    ((op.selectorFor? .key).map Json.str).or (d.get? "key") := by
  cases op with
  | scope on => cases on <;> simp [PickOperation.effect, withScoped, PickOperation.selectorFor?]
  | pick target p =>
    cases target with
    | key => simp [PickOperation.effect, withPick, PickOperation.selectorFor?]
    | container => simp [PickOperation.effect, withPick, PickOperation.selectorFor?]
    | field index =>
      obtain heq | ⟨fields, heq⟩ := d.withPick_field index p
      all_goals simp [PickOperation.effect, heq, PickOperation.selectorFor?]

theorem scope_effect (d : StepDefinition) (op : PickOperation) :
    ((op.effect d).get? "container", (op.effect d).get? "scoped") =
      op.rescope (d.get? "container", d.get? "scoped") := by
  cases op with
  | scope on => cases on <;> simp [PickOperation.effect, withScoped, PickOperation.rescope]
  | pick target p =>
    cases target with
    | key => simp [PickOperation.effect, withPick, PickOperation.rescope]
    | container => simp [PickOperation.effect, withPick, PickOperation.rescope]
    | field index =>
      obtain heq | ⟨fields, heq⟩ := d.withPick_field index p
      all_goals simp [PickOperation.effect, heq, PickOperation.rescope]

theorem get?_fields_effect (d : StepDefinition) {op : PickOperation}
    (h : ∀ index, op.selectorFor? (.field index) = none) :
    (op.effect d).get? "fields" = d.get? "fields" := by
  cases op with
  | scope on => cases on <;> simp [PickOperation.effect, withScoped]
  | pick target p =>
    cases target with
    | key => simp [PickOperation.effect, withPick]
    | container => simp [PickOperation.effect, withPick]
    | field index => simpa [PickOperation.selectorFor?] using h index

/-! ## Picks of different targets -/

theorem set_set (d : StepDefinition) (key : String) (v w : Json) :
    (d.set key w).set key v = d.set key v := by
  unfold set
  rw [Members.insert_insert]

theorem set_comm (d : StepDefinition) {k l : String} (h : k ≠ l) (v w : Json) :
    (d.set l w).set k v = (d.set k v).set l w := by
  unfold set
  rw [Members.insert_comm h]

theorem withPick_field_set (d : StepDefinition) {key : String} (h : "fields" ≠ key) (value : Json)
    (index : Nat) (p : Pick) :
    (d.set key value).withPick (.field index) p = (d.withPick (.field index) p).set key value := by
  simp only [withPick, get?_set, if_neg h]
  cases (d.get? "fields").bind (rekey index p.selector) with
  | none => rfl
  | some fields => exact set_comm d h fields value

/-- Keys of different fields can be replaced in either order. -/
theorem withPick_field_comm (d : StepDefinition) {i j : Nat} (h : i ≠ j) (p q : Pick) :
    (d.withPick (.field j) q).withPick (.field i) p =
      (d.withPick (.field i) p).withPick (.field j) q := by
  cases hfields : (d.get? "fields").bind Json.items? with
  | none =>
    have hnone (index : Nat) (r : Pick) : d.withPick (.field index) r = d := by
      have hrekey : (d.get? "fields").bind (rekey index r.selector) = none := by
        cases hget : d.get? "fields" with
        | none => rfl
        | some x =>
          rw [hget] at hfields
          simp only [Option.bind_some] at hfields
          simp [rekey, hfields]
      simp only [withPick, hrekey, Option.map_none, Option.getD_none]
    rw [hnone j q, hnone i p, hnone j q]
  | some xs =>
    have hget : d.get? "fields" = some (.arr xs) := by
      simpa [Option.bind_eq_some_iff] using hfields
    cases hi : (xs[i]?).bind Json.members? <;> cases hj : (xs[j]?).bind Json.members? <;>
      simp [withPick, hget, rekey, Json.items?, hi, hj, List.getElem?_set_ne h,
        List.getElem?_set_ne h.symm, set_set, List.set_comm _ _ h]

/-- Picks for different targets can be stored in either order. -/
theorem withPick_comm (d : StepDefinition) {target other : PickTarget} (h : target ≠ other)
    (p q : Pick) :
    (d.withPick other q).withPick target p = (d.withPick target p).withPick other q := by
  have hkc (p q : Pick) : (d.withPick .container q).withPick .key p =
      (d.withPick .key p).withPick .container q := by
    simp only [withPick]
    rw [set_comm _ (by decide), set_comm d (by decide)]
  have hfield (target : PickTarget) (htarget : ∀ index, target ≠ .field index) (index : Nat)
      (p q : Pick) : (d.withPick target q).withPick (.field index) p =
        (d.withPick (.field index) p).withPick target q := by
    cases target with
    | key => exact d.withPick_field_set (by decide) _ index p
    | container =>
      refine (withPick_field_set _ (by decide) _ index p).trans ?_
      exact congrArg (set · "scoped" (.bool true)) (d.withPick_field_set (by decide) _ index p)
    | field i => exact absurd rfl (htarget i)
  cases target with
  | key =>
    cases other with
    | key => exact absurd rfl h
    | container => exact hkc p q
    | field index => exact (hfield .key (by simp) index q p).symm
  | container =>
    cases other with
    | key => exact (hkc q p).symm
    | container => exact absurd rfl h
    | field index => exact (hfield .container (by simp) index q p).symm
  | field i =>
    cases other with
    | key => exact hfield .key (by simp) i p q
    | container => exact hfield .container (by simp) i p q
    | field j => exact d.withPick_field_comm (fun hij => h (congrArg _ hij)) p q

end StepDefinition

end SiteScript
