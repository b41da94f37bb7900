/-!
# Targets of a pick

A pick fills one selector of a step definition; `PickTarget` says which.
-/

namespace SiteScript

/-- The selector that a pick is for. -/
inductive PickTarget where
  /-- The key of the step. -/
  | key
  /-- The container of a selector step. -/
  | container
  /-- The key of the field at an index. -/
  | field (index : Nat)
deriving DecidableEq, Repr

/-- How a message names a target. -/
def PickTarget.label : PickTarget → String
  | key => "Key"
  | container => "Container"
  | field index => "Field(" ++ toString index ++ ")"

end SiteScript
