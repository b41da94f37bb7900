import SiteScript.Proofs.Step.Requirements
import SiteScript.Proofs.Step.Stored

/-!
# The answer to a definition

A registry that knows every type looks at the name of a definition, then at its type, at the shape
of its attributes and at the requirements of the type, in this order.  `Verdict` has a constructor for
each way in which this ends (`Registry.verdict`), and `Judged` says when it ends so.
-/

namespace SiteScript

open Requirement (IsFirst)

/-- The answers that a definition may get, each with all that leads to it. -/
inductive Verdict (d : StepDefinition) : Except Fault CheckedStep → Prop
  | unnamed (name : d.name = "") : Verdict d (.error (.required .stepName))
  | untyped (name : d.name ≠ "") (tag : d.tag = "") : Verdict d (.error (.required .stepType))
  | unknown (name : d.name ≠ "") (tag : d.tag ≠ "") (type : ∀ t : StepType, t.tag ≠ d.tag) :
    Verdict d (.error (.unknownType d.tag))
  | misshapen (name : d.name ≠ "") {t : StepType} (tag : t.tag = d.tag)
    (shape : ¬ t.WellShaped d.attributes) (fault : ShapeFault) :
    Verdict d (.error (.definition (.attributes d.name fault)))
  | unmet (name : d.name ≠ "") {t : StepType} (tag : t.tag = d.tag)
    (shape : t.WellShaped d.attributes) {property : Requirement}
    (first : IsFirst (t.Unmet d.attributes) (some property)) :
    Verdict d (.error (.required property))
  | accepted (name : d.name ≠ "") {t : StepType} (tag : t.tag = d.tag)
    (shape : t.WellShaped d.attributes) (met : IsFirst (t.Unmet d.attributes) none)
    (v : CheckedStep) : Verdict d (.ok v)

/-- A registry that knows every type gives one of these answers. -/
theorem Registry.verdict (d : StepDefinition) : Verdict d (full.check d) := by
  unfold check
  split_ifs with hname htag
  · exact .unnamed hname
  · exact .untyped hname htag
  rw [StepDefinition.type]
  cases htype : StepType.ofTag? d.tag with
  | none => exact .unknown hname htag (StepType.ofTag?_eq_none_iff.1 htype)
  | some t =>
    have ht : t.tag = d.tag := StepType.ofTag?_eq_some_iff.1 htype
    have hread := Action.exists_read_iff t d.attributes
    simp only [bind, Except.bind, expect_full, Kinds.settle_builtin]
    cases hraw : Action.read t (.obj d.attributes) with
    | error e =>
      refine .misshapen hname ht (fun hshape => ?_) e
      obtain ⟨raw, hraw'⟩ := hread.2 hshape
      rw [hraw] at hraw'
      cases hraw'
    | ok raw =>
      have hshape := hread.1 ⟨raw, hraw⟩
      have hfirst := Action.isFirst_unmet? hraw
      rw [← raw.unmet?_normalize] at hfirst
      cases hunmet : raw.normalize.unmet? with
      | some p =>
        rw [hunmet] at hfirst
        simp only [hunmet]
        exact .unmet hname ht hshape hfirst
      | none =>
        rw [hunmet] at hfirst
        simp only [hunmet]
        exact .accepted hname ht hshape hfirst _

/-- The answers to a definition, with the definitions that get them. -/
structure Judged (d : StepDefinition) (answer : Except Fault CheckedStep) : Prop where
  unnamed : answer = .error (.required .stepName) ↔ d.name = ""
  untyped : answer = .error (.required .stepType) ↔ d.name ≠ "" ∧ d.tag = ""
  unknown : answer = .error (.unknownType d.tag) ↔
    d.name ≠ "" ∧ d.tag ≠ "" ∧ ∀ t : StepType, t.tag ≠ d.tag
  misshapen : (∃ fault, answer = .error (.definition (.attributes d.name fault))) ↔
    d.name ≠ "" ∧ ∃ t : StepType, t.tag = d.tag ∧ ¬ t.WellShaped d.attributes
  unmet (property : Requirement) (hname : property ≠ .stepName) (htype : property ≠ .stepType) :
    answer = .error (.required property) ↔
      d.name ≠ "" ∧ ∃ t : StepType, t.tag = d.tag ∧ t.WellShaped d.attributes ∧
        IsFirst (t.Unmet d.attributes) (some property)
  accepted : (∃ v, answer = .ok v) ↔
    d.name ≠ "" ∧ ∃ t : StepType, t.tag = d.tag ∧ t.WellShaped d.attributes ∧
      ∀ property, ¬ t.Unmet d.attributes property

namespace Verdict

variable {d : StepDefinition} {answer : Except Fault CheckedStep} (h : Verdict d answer)
include h

/-- The answer to a definition that has a name and a type. -/
theorem of_type (hname : d.name ≠ "") {t : StepType} (ht : t.tag = d.tag) :
    (¬ t.WellShaped d.attributes ∧
      ∃ fault, answer = .error (.definition (.attributes d.name fault))) ∨
    (t.WellShaped d.attributes ∧ ∃ property, IsFirst (t.Unmet d.attributes) (some property) ∧
      answer = .error (.required property)) ∨
    (t.WellShaped d.attributes ∧ IsFirst (t.Unmet d.attributes) none ∧ ∃ v, answer = .ok v) := by
  cases h with
  | unnamed name => exact absurd name hname
  | untyped _ tag => exact absurd (ht.trans tag) t.tag_ne_empty
  | unknown _ _ type => exact absurd ht (type t)
  | misshapen _ tag shape fault =>
    obtain rfl := StepType.tag_injective (ht.trans tag.symm)
    exact .inl ⟨shape, fault, rfl⟩
  | unmet _ tag shape first =>
    obtain rfl := StepType.tag_injective (ht.trans tag.symm)
    exact .inr (.inl ⟨shape, _, first, rfl⟩)
  | accepted _ tag shape met v =>
    obtain rfl := StepType.tag_injective (ht.trans tag.symm)
    exact .inr (.inr ⟨shape, met, v, rfl⟩)

theorem judged : Judged d answer where
  unnamed := by
    constructor
    · rintro rfl
      cases h with
      | unnamed name => exact name
      | unmet _ _ _ first => exact absurd first.1 id
    · intro hname
      cases h with
      | unnamed => rfl
      | _ name => exact absurd hname name
  untyped := by
    constructor
    · rintro rfl
      cases h with
      | untyped name tag => exact ⟨name, tag⟩
      | unmet _ _ _ first => exact absurd first.1 id
    · rintro ⟨hname, htag⟩
      cases h with
      | untyped => rfl
      | unnamed name => exact absurd name hname
      | unknown _ tag => exact absurd htag tag
      | misshapen _ tag | unmet _ tag | accepted _ tag =>
        exact absurd (tag.trans htag) (StepType.tag_ne_empty _)
  unknown := by
    constructor
    · rintro rfl
      cases h with
      | unknown name tag type => exact ⟨name, tag, type⟩
    · rintro ⟨hname, htag, htype⟩
      cases h with
      | unknown => rfl
      | unnamed name => exact absurd name hname
      | untyped _ tag => exact absurd tag htag
      | misshapen _ tag | unmet _ tag | accepted _ tag => exact absurd tag (htype _)
  misshapen := by
    constructor
    · rintro ⟨fault, rfl⟩
      cases h with
      | misshapen name tag shape => exact ⟨name, _, tag, shape⟩
    · rintro ⟨hname, t, ht, hshape⟩
      obtain ⟨-, hanswer⟩ | ⟨shape, -⟩ | ⟨shape, -⟩ := h.of_type hname ht
      · exact hanswer
      · exact absurd shape hshape
      · exact absurd shape hshape
  unmet := by
    intro property hstep htype
    constructor
    · rintro rfl
      cases h with
      | unnamed => exact absurd rfl hstep
      | untyped => exact absurd rfl htype
      | unmet name tag shape first => exact ⟨name, _, tag, shape, first⟩
    · rintro ⟨hname, t, ht, hshape, hfirst⟩
      obtain ⟨shape, -⟩ | ⟨-, other, first, rfl⟩ | ⟨-, met, -⟩ := h.of_type hname ht
      · exact absurd hshape shape
      · rw [Option.some.inj (first.eq_some_iff.2 hfirst)]
      · exact absurd hfirst.1 (met property)
  accepted := by
    constructor
    · rintro ⟨v, rfl⟩
      cases h with
      | accepted name tag shape met => exact ⟨name, _, tag, shape, met⟩
    · rintro ⟨hname, t, ht, hshape, hmet⟩
      obtain ⟨shape, -⟩ | ⟨-, property, first, -⟩ | ⟨-, -, haccepted⟩ := h.of_type hname ht
      · exact absurd hshape shape
      · exact absurd first.1 (hmet property)
      · exact haccepted

end Verdict

/-- Attributes that the type of a definition does not declare do not change the answer. -/
theorem Registry.check_attributes {d : StepDefinition} {t : StepType} (ht : t.tag = d.tag)
    {ms : Members}
    (hms : (ms.filter fun n => n.1 ∈ t.declared) =
      d.attributes.filter fun n => n.1 ∈ t.declared) :
    full.check { d with attributes := ms } = full.check d := by
  have hread : Action.read t (.obj ms) = Action.read t (.obj d.attributes) := by
    rw [← Action.read_filter, hms, Action.read_filter]
  simp only [check, StepDefinition.type, StepType.ofTag?_eq_some_iff.2 ht, bind, Except.bind,
    expect_full, Kinds.settle_builtin, hread]

/-- What the check of a definition answers; attributes that are not declared do not count, and the
path in a message names one requirement. -/
theorem Registry.check_judged (d : StepDefinition) :
    Judged d (full.check d) ∧
      (∀ t : StepType, t.tag = d.tag → ∀ ms : Members,
        (ms.filter fun n => n.1 ∈ t.declared) = (d.attributes.filter fun n => n.1 ∈ t.declared) →
          full.check { d with attributes := ms } = full.check d) ∧
      Function.Injective Requirement.path :=
  ⟨(verdict d).judged, fun _ ht _ hms => check_attributes ht hms, Requirement.path_injective⟩

/-- The second field has no key; the container is not used, so it may be missing. -/
theorem Registry.check_judged_second_field :
    full.check ⟨"selector", "Rows",
      [("fields", .arr [.arr [.str "Name", .str ".name"], .obj [("key", .null)]]),
        ("note", .bool true), ("scoped", .bool false)]⟩ = .error (.required (.fieldKey 1)) := by
  refine ((check_judged _).1.unmet _ (by decide) (by decide)).2
    ⟨by decide, .selector, rfl, ?_, ?_, ?_⟩
  · simp [StepType.WellShaped, StepType.shapes, Json.IsFields, Json.IsField, Json.IsText,
      Json.IsChoice, ScrapeField.names]
  · refine ⟨ScrapeField.names, rfl, .obj [("key", .null)], rfl, rfl⟩
  · intro q hq
    cases q with
    | fieldKey index =>
      obtain ⟨_, ⟨⟩, x, hx, hkey⟩ := hq
      cases index with
      | zero => cases hx; exact absurd hkey (by decide)
      | succ index => exact Nat.add_le_add_left (Nat.le_add_left 1 index) 8
    | container => exact absurd hq.2.1 (by decide)
    | fields => exact absurd hq.2 (List.cons_ne_nil _ _)
    | key | value => exact absurd hq.1 (by decide)
    | siteName | siteUrl | stepName | stepType => exact hq.elim

end SiteScript
