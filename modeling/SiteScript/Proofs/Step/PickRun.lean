import SiteScript.Proofs.Step.Picking

/-!
# Runs of picks

Picks and switches of the container come in any order and number.  What a run of them keeps, and
what it leaves under each key, is the invariant `Picked`, which every operation carries on
(`Picked.effect`, `Picked.run`).  In particular no operation changes what is accepted
(`Picked.check_eq`), so picks for different targets can change places (`perform_comm`).
-/

namespace SiteScript.StepDefinition

/-- The definition after some operations. -/
def run (d : StepDefinition) (ops : List PickOperation) : StepDefinition :=
  ops.foldl (fun d op => (d.perform op).2) d

/-- The operations of a run that succeed. -/
def succeeded (d : StepDefinition) : List PickOperation → List PickOperation
  | [] => []
  | op :: ops =>
    match (d.perform op).1 with
    | .ok _ => op :: succeeded (d.perform op).2 ops
    | .error _ => succeeded (d.perform op).2 ops

/-! ## The last pick of a target -/

/-- The last selector that is picked for a target. -/
def lastPick? (target : PickTarget) (ops : List PickOperation) : Option String :=
  ops.reverse.findSome? (PickOperation.selectorFor? target)

theorem lastPick?_concat (target : PickTarget) (ops : List PickOperation) (op : PickOperation) :
    lastPick? target (ops ++ [op]) = (op.selectorFor? target).or (lastPick? target ops) := by
  unfold lastPick?
  rw [List.reverse_concat, List.findSome?_cons]
  cases op.selectorFor? target <;> rfl

@[simp]
theorem lastPick?_concat_scope (target : PickTarget) (ops : List PickOperation) (on : Bool) :
    lastPick? target (ops ++ [.scope on]) = lastPick? target ops := by
  rw [lastPick?_concat]
  rfl

@[simp]
theorem lastPick?_concat_pick (target t : PickTarget) (p : Pick) (ops : List PickOperation) :
    lastPick? target (ops ++ [.pick t p]) =
      if t = target then some p.selector else lastPick? target ops := by
  rw [lastPick?_concat, PickOperation.selectorFor?]
  split_ifs <;> rfl

/-! ## The invariant -/

/-- A field before and after a run: an object keeps its members but for the key, which is the last
one that was picked for it.  Any other value stays. -/
inductive FieldPicked (selector? : Option String) : Json → Json → Prop
  | object {before after : Members}
    (key : after.get? "key" = (selector?.map Json.str).or (before.get? "key"))
    (others : ∀ k, k ≠ "key" → after.get? k = before.get? k) :
    FieldPicked selector? (.obj before) (.obj after)
  | other {x : Json} (h : x.members? = none) : FieldPicked selector? x x

/-- The fields before and after a run: as many as before, each in its place.  What is no array
stays. -/
inductive FieldsPicked (selector? : Nat → Option String) : Option Json → Option Json → Prop
  | items {xs ys : List Json} (length : ys.length = xs.length)
    (field : ∀ i x y, xs[i]? = some x → ys[i]? = some y → FieldPicked (selector? i) x y) :
    FieldsPicked selector? (some (.arr xs)) (some (.arr ys))
  | other {x : Option Json} (h : x.bind Json.items? = none) : FieldsPicked selector? x x

/-- What a definition `d` has become after a run in which the operations `done` succeeded. -/
structure Picked (d : StepDefinition) (done : List PickOperation) (e : StepDefinition) : Prop where
  tag : e.tag = d.tag
  name : e.name = d.name
  others : ∀ k, k ∉ ["key", "container", "scoped", "fields"] → e.get? k = d.get? k
  key : e.get? "key" = ((lastPick? .key done).map Json.str).or (d.get? "key")
  scope : (e.get? "container", e.get? "scoped") =
    done.foldl PickOperation.rescope (d.get? "container", d.get? "scoped")
  fields : FieldsPicked (fun i => lastPick? (.field i) done) (d.get? "fields") (e.get? "fields")

theorem FieldPicked.refl (x : Json) : FieldPicked none x x := by
  cases x with
  | obj ms => exact .object rfl fun _ _ => rfl
  | _ => exact .other rfl

theorem FieldsPicked.refl (fields : Option Json) : FieldsPicked (fun _ => none) fields fields := by
  cases hitems : fields.bind Json.items? with
  | none => exact .other hitems
  | some xs =>
    obtain rfl : fields = some (.arr xs) := by simpa [Option.bind_eq_some_iff] using hitems
    refine .items rfl fun i x y hx hy => ?_
    rw [hx] at hy
    exact Option.some.inj hy ▸ .refl x

theorem Picked.refl (d : StepDefinition) : Picked d [] d :=
  ⟨rfl, rfl, fun _ _ => rfl, rfl, rfl, .refl _⟩

/-- A pick of a field that is found sets the key of that field and leaves the others alone. -/
theorem FieldsPicked.pick {selector? : Nat → Option String} {before : Option Json}
    {ys : List Json} (h : FieldsPicked selector? before (some (.arr ys))) {index : Nat}
    {ms : Members} (found : ys[index]? = some (.obj ms)) (selector : String) :
    FieldsPicked (fun i => if index = i then some selector else selector? i) before
      (some (.arr (ys.set index (.obj (Members.insert "key" (.str selector) ms))))) := by
  cases h with
  | other h => cases h
  | @items xs _ length field =>
    refine .items (by rw [List.length_set, length]) fun i x y hx hy => ?_
    by_cases hi : index = i
    · subst hi
      have hlt : index < ys.length := (List.getElem?_eq_some_iff.1 found).1
      rw [List.getElem?_set_self hlt] at hy
      rw [if_pos rfl, ← Option.some.inj hy]
      have hbefore := field index x _ hx found
      cases hbefore with
      | other h => cases h
      | object key others =>
        refine .object ?_ fun k hk => ?_
        · simp [Members.get?_insert]
        · rw [Members.get?_insert, if_neg hk, others k hk]
    · rw [List.getElem?_set_ne hi] at hy
      rw [if_neg hi]
      exact field i x y hx hy

/-- A run finds the fields that were there before it. -/
theorem FieldsPicked.isSome_fieldAt? {selector? : Nat → Option String}
    {before after : Option Json} (h : FieldsPicked selector? before after) (index : Nat) :
    (fieldAt? after index).isSome = (fieldAt? before index).isSome := by
  cases h with
  | other h => rfl
  | @items xs ys length field =>
    simp only [fieldAt?, Option.bind_some, Json.items?]
    cases hx : xs[index]? with
    | none =>
      rw [List.getElem?_eq_none_iff, ← length, ← List.getElem?_eq_none_iff] at hx
      rw [hx]
    | some x =>
      have hindex : index < ys.length := length ▸ (List.getElem?_eq_some_iff.1 hx).1
      have hy : ys[index]? = some ys[index] := List.getElem?_eq_getElem hindex
      have hfield := field index _ _ hx hy
      rw [hy]
      generalize ys[index] = y at hfield
      cases hfield <;> rfl

/-- What is accepted does not change in a run, nor why anything is refused. -/
theorem Picked.check_eq {d e : StepDefinition} {done : List PickOperation} (h : Picked d done e)
    (op : PickOperation) : op.check e = op.check d := by
  have htype : e.type = d.type := by rw [type, type, h.tag]
  cases op with
  | scope on => simp only [PickOperation.check, htype, h.tag]
  | pick target p =>
    have hfield : checkField (e.get? "fields") target = checkField (d.get? "fields") target := by
      cases target with
      | key => rfl
      | container => rfl
      | field index => simp only [checkField, h.fields.isSome_fieldAt? index]
    simp only [PickOperation.check, outcome_request, checkTarget, htype, hfield]

/-! ## Runs -/

theorem Picked.fields_effect {d e : StepDefinition} {done : List PickOperation}
    (h : Picked d done e) {op : PickOperation} (accepted : op.check e = .ok ()) :
    FieldsPicked (fun i => lastPick? (.field i) (done ++ [op])) (d.get? "fields")
      ((op.effect e).get? "fields") := by
  by_cases hpick : ∃ index p, op = .pick (.field index) p
  · obtain ⟨index, p, rfl⟩ := hpick
    cases hrequest : e.request (.field index) with
    | error fault =>
      rw [PickOperation.check, hrequest] at accepted
      cases accepted
    | ok r =>
      obtain ⟨ms, hfield⟩ := exists_field_of_request hrequest
      obtain ⟨ys, hys, hget⟩ := fieldAt?_eq_some_iff.1 hfield
      have hfields := h.fields
      rw [hys] at hfields
      have hafter : (PickOperation.effect e (.pick (.field index) p)).get? "fields" =
          some (.arr (ys.set index (.obj (Members.insert "key" (.str p.selector) ms)))) := by
        simp [PickOperation.effect, withPick, hys, rekey_eq hget]
      rw [hafter]
      simpa using hfields.pick hget p.selector
  · have hnone : ∀ index, op.selectorFor? (.field index) = none := by
      intro index
      cases op with
      | scope on => rfl
      | pick target p =>
        rw [PickOperation.selectorFor?, if_neg]
        rintro rfl
        exact hpick ⟨index, p, rfl⟩
    rw [get?_fields_effect e hnone]
    simpa [lastPick?_concat, hnone] using h.fields

theorem Picked.effect {d e : StepDefinition} {done : List PickOperation} (h : Picked d done e)
    {op : PickOperation} (accepted : op.check e = .ok ()) :
    Picked d (done ++ [op]) (op.effect e) where
  tag := (header_effect e op).1.trans h.tag
  name := (header_effect e op).2.trans h.name
  others k hk := (get?_effect_of_not_mem e op hk).trans (h.others k hk)
  key := by
    rw [get?_key_effect, h.key, lastPick?_concat]
    cases op.selectorFor? .key <;> rfl
  scope := by rw [scope_effect, h.scope, List.foldl_concat]
  fields := h.fields_effect accepted

/-- What holds of a definition after some operations holds after those of a run as well. -/
theorem Picked.run {d e : StepDefinition} {done : List PickOperation} (h : Picked d done e)
    (ops : List PickOperation) : Picked d (done ++ e.succeeded ops) (e.run ops) := by
  induction ops generalizing e done with
  | nil => simpa [succeeded, StepDefinition.run] using h
  | cons op ops ih =>
    cases hcheck : op.check e with
    | ok _ =>
      have hperform := perform_of_ok hcheck
      have hrest := ih (h.effect hcheck)
      simpa [succeeded, StepDefinition.run, hperform] using hrest
    | error fault =>
      have hperform := perform_of_error hcheck
      have hrest := ih h
      simpa [succeeded, StepDefinition.run, hperform] using hrest

/-- A pick that was accepted before another operation is accepted after it, and the other way round.
-/
theorem check_perform (d : StepDefinition) (first op : PickOperation) :
    op.check (d.perform first).2 = op.check d := by
  cases hcheck : first.check d with
  | ok _ =>
    rw [perform_of_ok hcheck]
    exact ((Picked.refl d).effect hcheck).check_eq op
  | error fault => rw [perform_of_error hcheck]

/-- Picks for different targets can change places. -/
theorem perform_comm (d : StepDefinition) {target other : PickTarget} (h : target ≠ other)
    (p q : Pick) :
    ((d.perform (.pick other q)).2.perform (.pick target p)).2 =
      ((d.perform (.pick target p)).2.perform (.pick other q)).2 := by
  have hp := check_perform d (.pick other q) (.pick target p)
  have hq := check_perform d (.pick target p) (.pick other q)
  cases hcp : PickOperation.check d (.pick target p) with
  | error fault =>
    rw [perform_of_error (hp.trans hcp), perform_of_error hcp]
  | ok _ =>
    cases hcq : PickOperation.check d (.pick other q) with
    | error fault =>
      rw [perform_of_error hcq, perform_of_error (hq.trans hcq)]
    | ok _ =>
      rw [perform_of_ok (hp.trans hcp), perform_of_ok (hq.trans hcq), perform_of_ok hcp,
        perform_of_ok hcq]
      exact d.withPick_comm h p q

/-- At every point of a run the definition is what `Picked` says of the operations that succeeded.
A pick is accepted if and only if the request for its target is, and refused for the same reason;
what is accepted is so at every point.  What is refused changes nothing, the field that a request
was accepted for is found again, and picks for different targets can change places. -/
theorem picked_run (d : StepDefinition) (ops : List PickOperation) :
    Picked d (d.succeeded ops) (d.run ops) ∧
      (∀ target p, ((d.run ops).perform (.pick target p)).1 =
        Except.outcome ((d.run ops).request target)) ∧
      (∀ target, Except.outcome ((d.run ops).request target) = Except.outcome (d.request target)) ∧
      (∀ op, ((d.run ops).perform op).1 = (d.perform op).1) ∧
      (∀ op fault, ((d.run ops).perform op).1 = .error fault →
        ((d.run ops).perform op).2 = d.run ops) ∧
      (∀ index r, (d.run ops).request (.field index) = .ok r →
        ∀ selector, ((putFieldKey index selector).run (d.run ops)).1 = .ok ()) ∧
      ∀ target other p q, target ≠ other →
        (((d.run ops).perform (.pick other q)).2.perform (.pick target p)).2 =
          (((d.run ops).perform (.pick target p)).2.perform (.pick other q)).2 := by
  have hpicked : Picked d (d.succeeded ops) (d.run ops) := (Picked.refl d).run ops
  refine ⟨hpicked, ?_, ?_, ?_, ?_, ?_, ?_⟩
  · intro target p
    exact answer_perform _ _
  · intro target
    exact hpicked.check_eq (.pick target ⟨""⟩)
  · intro op
    rw [answer_perform, answer_perform]
    exact hpicked.check_eq op
  · intro op fault h
    rw [answer_perform] at h
    rw [perform_of_error h]
  · intro index r h selector
    obtain ⟨ms, hfield⟩ := exists_field_of_request h
    rw [run_putFieldKey hfield ⟨selector⟩]
  · intro target other p q h
    exact perform_comm _ h p q

end SiteScript.StepDefinition
