/-!
# Faults in JSON text

`SyntaxFault` says what is wrong with a text that is not JSON, and where: the line counts from one,
the column is the number of bytes since the last line feed. A reader reports a `Stop`; only
`Stop.locate`, which sees the whole text, turns it into lines and columns.
-/

namespace SiteScript

/-- What is wrong with a text that is not JSON. -/
inductive SyntaxProblem where
  | valueMissing
  | stringUnfinished
  | arrayUnfinished
  | objectUnfinished
  | valueExpected
  | wordExpected
  | colonExpected
  | itemEndExpected
  | memberEndExpected
  | keyExpected
  | trailingComma
  | trailingCharacters
  | badNumber
  | numberOutOfRange
  | badEscape
  | controlCharacter
  | loneSurrogate
  | surrogatePairUnfinished
  | nestedTooDeeply
deriving DecidableEq, Repr

/-- The wording of a problem. -/
def SyntaxProblem.message : SyntaxProblem → String
  | valueMissing => "EOF while parsing a value"
  | stringUnfinished => "EOF while parsing a string"
  | arrayUnfinished => "EOF while parsing a list"
  | objectUnfinished => "EOF while parsing an object"
  | valueExpected => "expected value"
  | wordExpected => "expected ident"
  | colonExpected => "expected `:`"
  | itemEndExpected => "expected `,` or `]`"
  | memberEndExpected => "expected `,` or `\x7d`"
  | keyExpected => "key must be a string"
  | trailingComma => "trailing comma"
  | trailingCharacters => "trailing characters"
  | badNumber => "invalid number"
  | numberOutOfRange => "number out of range"
  | badEscape => "invalid escape"
  | controlCharacter => "control character (\\u0000-\\u001F) found while parsing a string"
  | loneSurrogate => "lone leading surrogate in hex escape"
  | surrogatePairUnfinished => "unexpected end of hex escape"
  | nestedTooDeeply => "recursion limit exceeded"

/-- A place in a text. -/
structure Position where
  line : Nat
  column : Nat
deriving DecidableEq, Repr

/-- A problem and its place. -/
structure SyntaxFault where
  problem : SyntaxProblem
  position : Position
deriving DecidableEq, Repr

/-- The wording of a fault. -/
def SyntaxFault.message (f : SyntaxFault) : String :=
  f.problem.message ++ " at line " ++ toString f.position.line ++ " column " ++
    toString f.position.column

/-- The number of bytes of a text in UTF-8. -/
def utf8Length (cs : List Char) : Nat :=
  cs.foldr (fun c n => c.utf8Size + n) 0

/-- The place that lies some bytes of a text behind another one, at most at the end of the text. -/
def Position.advance (p : Position) : Nat → List Char → Position
  | 0, _ => p
  | _, [] => p
  | bytes, c :: cs =>
    if c = '\n' then Position.advance ⟨p.line + 1, 0⟩ (bytes - 1) cs
    else Position.advance ⟨p.line, p.column + min bytes c.utf8Size⟩ (bytes - c.utf8Size) cs

/-- Where and why a reader stopped: the problem, the text it had not read, and how many bytes of
that text it had looked at to see the problem. -/
structure Stop where
  problem : SyntaxProblem
  unread : List Char
  looked : Nat
deriving DecidableEq, Repr

/-- The fault that a stop stands for in the text `cs`. -/
def Stop.locate (stop : Stop) (cs : List Char) : SyntaxFault where
  problem := stop.problem
  position := Position.advance ⟨1, 0⟩ (utf8Length cs - utf8Length stop.unread + stop.looked) cs

end SiteScript
