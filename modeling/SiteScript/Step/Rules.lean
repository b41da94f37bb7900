import SiteScript.Fault
import SiteScript.Step.Action

/-!
# Rules for actions

`Action.normalize` fills in the attributes that follow from others, `Action.unmet?` names the first
requirement that an action does not meet. An action is settled when it is normal and meets all.
-/

namespace SiteScript

/-! ## Normal form -/

/-- The selector with its scope said and without a container it does not use. -/
def Selector.normalize (s : Selector) : Selector where
  scope := some s.isScoped
  container := if s.isScoped then s.container else ""
  fields := s.fields.map ScrapeField.normalize

theorem Selector.normalize_normalize (s : Selector) : s.normalize.normalize = s.normalize := by
  have h : s.normalize.isScoped = s.isScoped := rfl
  unfold Selector.normalize at h ⊢
  simp only [h, List.map_map, Selector.mk.injEq, true_and]
  refine ⟨by split <;> rfl, List.map_congr_left fun f _ => ?_⟩
  exact f.normalize_normalize

namespace Action

/-- The action with the attributes that follow from others filled in. -/
def normalize : Action → Action
  | scrape a => scrape { a with fields := a.fields.map ScrapeField.normalize }
  | selector a => selector a.normalize
  | a => a

theorem normalize_normalize (a : Action) : a.normalize.normalize = a.normalize := by
  cases a with
  | scrape a =>
    simp only [normalize, List.map_map, scrape.injEq, Scrape.mk.injEq]
    exact List.map_congr_left fun f _ => f.normalize_normalize
  | selector a => simp only [normalize, a.normalize_normalize]
  | _ => rfl

theorem type_normalize (a : Action) : a.normalize.type = a.type := by
  cases a <;> rfl

/-! ## Requirements -/

/-- The requirement, if the text is empty. -/
def needs (property : Requirement) (s : String) : Option Requirement :=
  if s = "" then some property else none

/-- The first of some keys, counted from `index`, that is empty. -/
def needsKeys (index : Nat) : List String → Option Requirement
  | [] => none
  | key :: keys => needs (.fieldKey index) key <|> needsKeys (index + 1) keys

/-- A list of fields must not be empty, and none of its keys. -/
def needsFields (keys : List String) : Option Requirement :=
  if keys = [] then some .fields else needsKeys 0 keys

/-- The first requirement that an action does not meet. -/
def unmet? : Action → Option Requirement
  | click a => needs .key a.key
  | select a => needs .key a.key <|> needs .value a.value
  | form a => needsFields (a.fields.map FormField.key)
  | formSelector a => needs .key a.key <|> needsFields (a.fields.map FormField.key)
  | scrape a => needsFields (a.fields.map ScrapeField.key)
  | selector a =>
    (if a.isScoped then needs .container a.container else none) <|>
      needsFields (a.fields.map ScrapeField.key)

/-- An action is settled when it is normal and meets every requirement. -/
structure Settled (a : Action) : Prop where
  normal : a.normalize = a
  met : a.unmet? = none

/-- Fail at the first requirement that an action does not meet. -/
def check (a : Action) : Except Fault Unit :=
  match a.unmet? with
  | some property => .error (.required property)
  | none => .ok ()

/-! ## Descriptors -/

/-- The values that an action of a step yields. -/
def params (step : String) : Action → List ParamDescriptor
  | scrape a => a.fields.map (ScrapeField.descriptor step)
  | selector a => a.fields.map (ScrapeField.descriptor step)
  | _ => []

end Action

end SiteScript
