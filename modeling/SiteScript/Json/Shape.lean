import SiteScript.Json.Members
import SiteScript.Json.Number
import SiteScript.Text.Quoted

/-!
# Shapes of JSON values

Typed data are read from JSON values of a fixed shape. `ShapeFault` says how a value misses its
shape; the readers of this file take the plain shapes, `SiteScript.Json.Record` the records.
-/

namespace SiteScript

/-- What a reader of typed data asks of a value. -/
inductive Shape where
  | text
  | boolean
  | sequence
  | size
  | record (name : String)
  | tag
  | nothing
  | singleMember
deriving DecidableEq, Repr

/-- The wording of a shape. -/
def Shape.message : Shape → String
  | text => "a string"
  | boolean => "a boolean"
  | sequence => "a sequence"
  | size => "usize"
  | record name => "struct " ++ name
  | tag => "string or map"
  | nothing => "unit"
  | singleMember => "map with a single key"

/-- How a value misses the shape that was asked of it. -/
inductive ShapeFault where
  | wrongType (found : Json) (wanted : Shape)
  | wrongValue (found : Json) (wanted : Shape)
  | missing (member : String)
  | tooShort (length : Nat) (record : String) (members : Nat)
  | tooLong (length : Nat)
  | unknownTag (tag : String) (known : List String)
  | badWidth (width : Nat)
deriving DecidableEq

/-- How a message names a value. -/
def Json.describe : Json → String
  | null => "null"
  | bool b => "boolean `" ++ toString b ++ "`"
  | num (.int i) => "integer `" ++ String.ofList (Decimal.intText i) ++ "`"
  | num (.float x) => "floating point `" ++ String.ofList x.text ++ "`"
  | str s => "string " ++ Text.quoted s
  | arr _ => "sequence"
  | obj _ => "map"

/-- The wording of a refused indentation width. -/
def badWidthMessage (width : Nat) : String :=
  "Invalid option: indent width must be 2 or 4, got " ++ toString width

/-- The wording of a fault. -/
def ShapeFault.message : ShapeFault → String
  | wrongType found wanted => "invalid type: " ++ found.describe ++ ", expected " ++ wanted.message
  | wrongValue found wanted =>
    "invalid value: " ++ found.describe ++ ", expected " ++ wanted.message
  | missing member => "missing field `" ++ member ++ "`"
  | tooShort length record members =>
    "invalid length " ++ toString length ++ ", expected struct " ++ record ++ " with " ++
      toString members ++ (if members = 1 then " element" else " elements")
  | tooLong length =>
    "invalid length " ++ toString length ++ ", expected fewer elements in array"
  | unknownTag tag known =>
    "unknown variant `" ++ tag ++ "`, expected one of " ++
      ", ".intercalate (known.map fun k => "`" ++ k ++ "`")
  | badWidth width => badWidthMessage width

namespace Json

/-- Take a string. -/
def asText : Json → Except ShapeFault String
  | str s => .ok s
  | x => .error (.wrongType x .text)

/-- Take a boolean. -/
def asBool : Json → Except ShapeFault Bool
  | bool b => .ok b
  | x => .error (.wrongType x .boolean)

/-- Take an array and each of its items. -/
def asList {α : Type} (item : Json → Except ShapeFault α) : Json → Except ShapeFault (List α)
  | arr xs => xs.mapM item
  | x => .error (.wrongType x .sequence)

/-- Take a natural number: a whole number that is not negative. -/
def asSize : Json → Except ShapeFault Nat
  | num (.int (.ofNat n)) => .ok n
  | num (.int i) => .error (.wrongValue (.num (.int i)) .size)
  | x => .error (.wrongType x .size)

/-- Take a value that may be null. -/
def asOption {α : Type} (read : Json → Except ShapeFault α) : Json → Except ShapeFault (Option α)
  | null => .ok none
  | x => (read x).map some

/-- Take a value for which null stands for `blank`. -/
def orBlank {α : Type} (blank : α) (read : Json → Except ShapeFault α) :
    Json → Except ShapeFault α
  | null => .ok blank
  | x => read x

end Json

end SiteScript
