import SiteScript.Decimal.Binary64

/-!
# The value of a decimal numeral

A numeral is a sign, a significand below `2 ^ 64` and a power of ten. Its value takes two roundings:
the significand is rounded to a binary64 number, which is then multiplied or divided by the rounded
power of ten. An exponent below `-308` is taken in steps of 308.
-/

namespace SiteScript.Decimal

/-- A decimal numeral `significand * 10 ^ exponent` with a sign. -/
structure Numeral where
  negative : Bool
  significand : Nat
  exponent : Int
deriving DecidableEq, Repr

/-- The rounded power of ten; for the exponents up to 308 it is finite. -/
def powerOfTen (n : Nat) : Magnitude :=
  (Magnitude.nearest (tenPow n) 1).getD .zero

/-- A magnitude times a power of ten, or `none` on overflow. -/
def Magnitude.scale? (x : Magnitude) (exponent : Int) : Option Magnitude :=
  if exponent.natAbs ≤ 308 then
    if 0 ≤ exponent then x.mul? (powerOfTen exponent.natAbs)
    else x.div? (powerOfTen exponent.natAbs)
  else if x.mantissa = 0 then some x
  else if 0 ≤ exponent then none
  else
    match x.div? (powerOfTen 308) with
    | none => none
    | some y => y.scale? (exponent + 308)
termination_by exponent.natAbs
decreasing_by omega

/-- The value of a numeral, or `none` if it is out of range. -/
def Numeral.value? (n : Numeral) : Option Binary64 := do
  let significand ← Magnitude.nearest n.significand 1
  let magnitude ← significand.scale? n.exponent
  return ⟨n.negative, magnitude⟩

end SiteScript.Decimal
