import SiteScript.Decimal.Binary64

/-!
# Shortest decimals

`Magnitude.shortest` finds the decimal with the fewest digits among those that are nearer to a
magnitude than to any other one, and of these the nearest. It walks the decimal grids with 1, 2, …
digits and looks at the two grid points around the magnitude; all arithmetic is exact.
-/

namespace SiteScript.Decimal

/-- A decimal expansion `digits * 10 ^ exponent`. -/
structure Expansion where
  digits : Nat
  exponent : Int
deriving DecidableEq, Repr

namespace Magnitude

/-- The exponent of the leading decimal digit of `num / den`. -/
def leadingExponent (num den : Nat) : Int :=
  if den ≤ num then ((Nat.toDigits 10 (num / den)).length : Int) - 1
  else -((Nat.toDigits 10 ((den + num - 1) / num - 1)).length : Int)

/-- The interval of the numbers that round to a magnitude, in quarters of its last place: the
bounds and whether they belong to it. The gap below a power of two is half as wide. -/
def roundingInterval (x : Magnitude) : Nat × Nat × Bool :=
  let below := if x.mantissa = twoPow 52 ∧ -1074 < x.exponent then 1 else 2
  (4 * x.mantissa - below, 4 * x.mantissa + 2, x.mantissa % 2 = 0)

/-- Whether `d * 10 ^ k` rounds to the magnitude. -/
def covers (x : Magnitude) (d : Nat) (k : Int) : Bool :=
  let (lo, hi, closed) := x.roundingInterval
  let e := x.exponent - 2
  let point := d * tenPow k.toNat * twoPow (-e).toNat
  let unit := tenPow (-k).toNat * twoPow e.toNat
  if closed then lo * unit ≤ point && point ≤ hi * unit else lo * unit < point && point < hi * unit

/-- The point of the decimal grid `10 ^ k` that rounds to the magnitude and is nearest to it, of two
equally near ones the even one. -/
def gridPoint? (x : Magnitude) (k : Int) : Option Nat :=
  let num := x.mantissa * twoPow x.exponent.toNat * tenPow (-k).toNat
  let den := twoPow (-x.exponent).toNat * tenPow k.toNat
  let nearer := roundQuotient num den
  let further := if num / den = nearer then nearer + 1 else num / den
  if x.covers nearer k then some nearer
  else if x.covers further k then some further
  else none

/-- An expansion without the zeros at the end of its digits; the fuel bounds how many go. -/
def stripZeros : Nat → Expansion → Expansion
  | 0, d => d
  | fuel + 1, d =>
    if d.digits ≠ 0 ∧ d.digits % 10 = 0 then stripZeros fuel ⟨d.digits / 10, d.exponent + 1⟩ else d

/-- The shortest decimal of a magnitude. Seventeen digits always suffice. -/
def shortest (x : Magnitude) : Expansion :=
  if x.mantissa = 0 then ⟨0, 0⟩
  else
    let lead := leadingExponent (x.mantissa * twoPow x.exponent.toNat) (twoPow (-x.exponent).toNat)
    let grids := (List.range 17).map fun (n : Nat) => lead - (n : Int)
    match grids.findSome? fun k => (x.gridPoint? k).map fun d => (⟨d, k⟩ : Expansion) with
    | some d => stripZeros 17 d
    | none => ⟨0, 0⟩

end Magnitude

end SiteScript.Decimal
