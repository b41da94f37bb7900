/-!
# Binary64 numbers

A finite binary64 number is a sign and a magnitude `mantissa * 2 ^ exponent`. `Magnitude.nearest`
rounds a quotient of natural numbers to the nearest magnitude, a tie to the even mantissa;
multiplication and division of magnitudes are the exact operation followed by that rounding.
-/

namespace SiteScript.Decimal

/-- A power of two. -/
def twoPow (n : Nat) : Nat :=
  Nat.pow 2 n

/-- A power of ten. -/
def tenPow (n : Nat) : Nat :=
  Nat.pow 10 n

/-- A magnitude `mantissa * 2 ^ exponent`. In normal form the mantissa is below `2 ^ 53`, the
exponent is at least `-1074`, and one of the two cannot be lowered. -/
structure Magnitude where
  mantissa : Nat
  exponent : Int
deriving DecidableEq, Repr

/-- A finite binary64 number. -/
structure Binary64 where
  negative : Bool
  magnitude : Magnitude
deriving DecidableEq, Repr

/-- The quotient of `num` and `den`, rounded to the nearest integer, a tie to the even one. -/
def roundQuotient (num den : Nat) : Nat :=
  let q := num / den
  let r := num % den
  if 2 * r < den then q
  else if den < 2 * r then q + 1
  else q + q % 2

namespace Magnitude

def zero : Magnitude := ⟨0, -1074⟩

/-- The least exponent that gives `num / den` a mantissa below `2 ^ 53`, but not below `-1074`. -/
def exponentOf (num den : Nat) : Int :=
  let guess : Int := (num.log2 : Int) - (den.log2 : Int) - 53
  let quotient := num * twoPow (-guess).toNat / (den * twoPow guess.toNat)
  max (-1074) (if quotient < twoPow 53 then guess else guess + 1)

/-- The magnitude nearest to `num / den`, or `none` if that is beyond the largest one. -/
def nearest (num den : Nat) : Option Magnitude :=
  if num = 0 then some zero
  else
    let e := exponentOf num den
    let m := roundQuotient (num * twoPow (-e).toNat) (den * twoPow e.toNat)
    let rounded : Magnitude := if m = twoPow 53 then ⟨twoPow 52, e + 1⟩ else ⟨m, e⟩
    if rounded.exponent ≤ 971 then some rounded else none

/-- The magnitude nearest to `num / den * 2 ^ e`. -/
def nearestScaled (num den : Nat) (e : Int) : Option Magnitude :=
  nearest (num * twoPow e.toNat) (den * twoPow (-e).toNat)

/-- The rounded product, or `none` on overflow. -/
def mul? (a b : Magnitude) : Option Magnitude :=
  nearestScaled (a.mantissa * b.mantissa) 1 (a.exponent + b.exponent)

/-- The rounded quotient, or `none` on overflow. -/
def div? (a b : Magnitude) : Option Magnitude :=
  nearestScaled a.mantissa b.mantissa (a.exponent - b.exponent)

end Magnitude

end SiteScript.Decimal
