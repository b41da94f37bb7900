import SiteScript.Decimal.Shortest

/-!
# The text of a number

`Binary64.text` writes the shortest digits of a number. A number whose leading digit has an exponent
between `-5` and `15` is written without exponent and with at least one digit after the point.
-/

namespace SiteScript.Decimal

/-- The characters of a natural number in decimal. -/
def natText (n : Nat) : List Char :=
  Nat.toDigits 10 n

/-- The characters of an integer in decimal. -/
def intText : Int → List Char
  | .ofNat n => natText n
  | .negSucc n => '-' :: natText (n + 1)

/-- Digits with a point: `digits * 10 ^ exponent` without an exponent part. -/
def plainText (digits : List Char) (exponent : Int) : List Char :=
  if 0 ≤ exponent then digits ++ List.replicate exponent.toNat '0' ++ ['.', '0']
  else
    let places := (-exponent).toNat
    let padded := List.replicate (places + 1 - digits.length) '0' ++ digits
    padded.take (padded.length - places) ++ '.' :: padded.drop (padded.length - places)

/-- Digits with the point after the first one, and the exponent of that one with its sign. -/
def scientificText (digits : List Char) (lead : Int) : List Char :=
  let mantissa := match digits with
    | d :: rest@(_ :: _) => d :: '.' :: rest
    | short => short
  mantissa ++ 'e' :: (if lead < 0 then '-' else '+') :: natText lead.natAbs

/-- The text of a magnitude. -/
def Magnitude.text (x : Magnitude) : List Char :=
  let d := x.shortest
  let digits := natText d.digits
  let lead := d.exponent + digits.length - 1
  if -5 ≤ lead ∧ lead ≤ 15 then plainText digits d.exponent else scientificText digits lead

/-- The text of a number; zero keeps its sign. -/
def Binary64.text (x : Binary64) : List Char :=
  if x.negative then '-' :: x.magnitude.text else x.magnitude.text

end SiteScript.Decimal
