import SiteScript.Decimal.Numeral
import SiteScript.Decimal.Text
import SiteScript.Json.Basic
import SiteScript.Json.Position

/-!
# JSON numbers

`Number.read` reads a number at the head of a text, `Number.text` writes one. A numeral without
fraction and exponent is an integer if it lies between `-2 ^ 63` and `2 ^ 64 - 1`; all others, and
`-0`, are binary64 numbers.
-/

namespace SiteScript.Number

open Decimal

/-- The text of a number. -/
def text : Number → List Char
  | int n => intText n
  | float x => x.text

/-- The value of a decimal digit. -/
def digitValue (c : Char) : Nat :=
  c.toNat - '0'.toNat

/-- Append digits to a significand while it stays below `2 ^ 64`. Answers the significand and how
many digits were left out. -/
def gather (significand : Nat) : List Char → Nat × Nat
  | [] => (significand, 0)
  | d :: ds =>
    let next := 10 * significand + digitValue d
    if next < twoPow 64 then gather next ds else (significand, ds.length + 1)

/-- How many digits of an exponent take it beyond `2 ^ 31 - 1`, if any do. -/
def exponentLimit? (value : Nat) : List Char → Option Nat
  | [] => none
  | d :: ds =>
    let next := 10 * value + digitValue d
    if next < twoPow 31 then (exponentLimit? next ds).map (· + 1) else some 1

/-- The number that a numeral stands for; `rest` is the text after it. -/
def ofNumeral (n : Numeral) (rest : List Char) : Except Stop (Number × List Char) :=
  match n.value? with
  | some x => .ok (.float x, rest)
  | none => .error ⟨.numberOutOfRange, rest, 0⟩

/-- The exponent part of a numeral, after its letter. -/
def readExponent (n : Numeral) (cs : List Char) : Except Stop (Number × List Char) :=
  let down := cs.head? == some '-'
  let cs := if cs.head? = some '-' ∨ cs.head? = some '+' then cs.drop 1 else cs
  let digits := cs.takeWhile Char.isDigit
  let rest := cs.dropWhile Char.isDigit
  match digits with
  | [] => .error (if cs = [] then ⟨.valueMissing, [], 0⟩ else ⟨.badNumber, cs, 1⟩)
  | _ :: _ =>
    match exponentLimit? 0 digits with
    | some k =>
      if n.significand ≠ 0 ∧ !down then .error ⟨.numberOutOfRange, cs.drop k, 0⟩
      else .ok (.float ⟨n.negative, .zero⟩, rest)
    | none =>
      let e : Nat := digits.foldl (fun e d => 10 * e + digitValue d) 0
      ofNumeral ⟨n.negative, n.significand, if down then n.exponent - e else n.exponent + e⟩ rest

/-- The rest of a numeral after its digits. -/
def readTail (n : Numeral) : List Char → Except Stop (Number × List Char)
  | [] => ofNumeral n []
  | c :: cs => if c = 'e' ∨ c = 'E' then readExponent n cs else ofNumeral n (c :: cs)

/-- The fraction of a numeral, after its point. -/
def readFraction (n : Numeral) (cs : List Char) : Except Stop (Number × List Char) :=
  let digits := cs.takeWhile Char.isDigit
  let rest := cs.dropWhile Char.isDigit
  match digits with
  | [] => .error (if rest = [] then ⟨.valueMissing, [], 0⟩ else ⟨.badNumber, rest, 1⟩)
  | _ :: _ =>
    let (significand, left) := gather n.significand digits
    let taken : Nat := digits.length - left
    readTail ⟨n.negative, significand, n.exponent - taken⟩ rest

/-- The integer with the given sign and significand, if it is in range. -/
def ofSignificand? (negative : Bool) (significand : Nat) : Option Int :=
  if negative then
    if significand ≠ 0 ∧ significand ≤ twoPow 63 then some (-significand) else none
  else some significand

/-- A number without its sign. -/
def readUnsigned (negative : Bool) (cs : List Char) : Except Stop (Number × List Char) :=
  let digits := cs.takeWhile Char.isDigit
  let rest := cs.dropWhile Char.isDigit
  match digits with
  | [] => .error (if cs = [] then ⟨.valueMissing, [], 0⟩ else ⟨.badNumber, cs, 1⟩)
  | '0' :: _ :: _ => .error ⟨.badNumber, cs.drop 1, 1⟩
  | _ :: _ =>
    let (significand, left) := gather 0 digits
    let n : Numeral := ⟨negative, significand, left⟩
    match rest with
    | '.' :: rest => readFraction n rest
    | rest =>
      if rest.head? = some 'e' ∨ rest.head? = some 'E' then readExponent n (rest.drop 1)
      else
        match left, ofSignificand? negative significand with
        | 0, some i => .ok (.int i, rest)
        | _, _ => ofNumeral n rest

/-- The number at the head of a text. -/
def read : List Char → Except Stop (Number × List Char)
  | '-' :: cs => readUnsigned true cs
  | cs => readUnsigned false cs

end SiteScript.Number
