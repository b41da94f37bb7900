import SiteScript.Json.Position

/-!
# JSON strings

`Json.escape` writes the characters of a string, `Json.readString` reads them up to the closing
quote. Written strings escape the quote, the backslash and the controls, and nothing else.
-/

namespace SiteScript.Json

/-! ## Writing -/

/-- The hexadecimal digit of a number below sixteen, in lower case. -/
def hexDigit (n : Nat) : Char :=
  Nat.digitChar n

/-- How a written string shows one character. -/
def escapeChar (c : Char) : List Char :=
  if c = '"' then ['\\', '"']
  else if c = '\\' then ['\\', '\\']
  else if c = '\x08' then ['\\', 'b']
  else if c = '\x0c' then ['\\', 'f']
  else if c = '\n' then ['\\', 'n']
  else if c = '\r' then ['\\', 'r']
  else if c = '\t' then ['\\', 't']
  else if c < ' ' then ['\\', 'u', '0', '0', hexDigit (c.toNat / 16), hexDigit (c.toNat % 16)]
  else [c]

/-- The characters between the quotes of a written string. -/
def escape (cs : List Char) : List Char :=
  cs.flatMap escapeChar

/-! ## Reading -/

/-- The value of a hexadecimal digit in either case. -/
def hexValue? (c : Char) : Option Nat :=
  if '0' ≤ c ∧ c ≤ '9' then some (c.toNat - '0'.toNat)
  else if 'a' ≤ c ∧ c ≤ 'f' then some (c.toNat - 'a'.toNat + 10)
  else if 'A' ≤ c ∧ c ≤ 'F' then some (c.toNat - 'A'.toNat + 10)
  else none

/-- The number that four hexadecimal digits write. Four bytes are taken before they are looked at,
so a text with fewer is unfinished whatever it holds. -/
def readHex (cs : List Char) : Except Stop Nat :=
  if utf8Length (cs.take 4) < 4 then .error ⟨.stringUnfinished, [], 0⟩
  else
    match (cs.take 4).mapM hexValue? with
    | some [a, b, c, d] => .ok (4096 * a + 256 * b + 16 * c + d)
    | _ => .error ⟨.badEscape, cs, 4⟩

def isLeadingSurrogate (n : Nat) : Bool :=
  0xD800 ≤ n && n ≤ 0xDBFF

def isTrailingSurrogate (n : Nat) : Bool :=
  0xDC00 ≤ n && n ≤ 0xDFFF

/-- The character that a surrogate pair stands for. -/
def ofSurrogates (leading trailing : Nat) : Char :=
  Char.ofNat ((leading - 0xD800) * 0x400 + (trailing - 0xDC00) + 0x10000)

/-- The trailing half of a surrogate pair, after the digits of the leading one. -/
def readTrailing (leading : Nat) : List Char → Except Stop Char
  | [] => .error ⟨.stringUnfinished, [], 0⟩
  | ['\\'] => .error ⟨.stringUnfinished, [], 0⟩
  | '\\' :: 'u' :: cs => do
    let n ← readHex cs
    if isTrailingSurrogate n then .ok (ofSurrogates leading n)
    else .error ⟨.loneSurrogate, cs.drop 4, 0⟩
  | '\\' :: cs => .error ⟨.surrogatePairUnfinished, cs, 1⟩
  | cs => .error ⟨.surrogatePairUnfinished, cs, 1⟩

/-- The character that an escape stands for, and how many characters follow its backslash. -/
def readEscape : List Char → Except Stop (Char × Nat)
  | [] => .error ⟨.stringUnfinished, [], 0⟩
  | '"' :: _ => .ok ('"', 1)
  | '\\' :: _ => .ok ('\\', 1)
  | '/' :: _ => .ok ('/', 1)
  | 'b' :: _ => .ok ('\x08', 1)
  | 'f' :: _ => .ok ('\x0c', 1)
  | 'n' :: _ => .ok ('\n', 1)
  | 'r' :: _ => .ok ('\r', 1)
  | 't' :: _ => .ok ('\t', 1)
  | 'u' :: cs => do
    let n ← readHex cs
    if isTrailingSurrogate n then .error ⟨.loneSurrogate, cs.drop 4, 0⟩
    else if isLeadingSurrogate n then
      let c ← readTrailing n (cs.drop 4)
      .ok (c, 11)
    else .ok (Char.ofNat n, 5)
  | cs => .error ⟨.badEscape, cs, 1⟩

/-- The characters of a string after its opening quote, and the text after its closing one. -/
def readString : List Char → Except Stop (List Char × List Char)
  | [] => .error ⟨.stringUnfinished, [], 0⟩
  | c :: cs =>
    if c = '"' then .ok ([], cs)
    else if c = '\\' then
      match readEscape cs with
      | .error stop => .error stop
      | .ok (x, n) => (readString (cs.drop n)).map fun (xs, rest) => (x :: xs, rest)
    else if c < ' ' then .error ⟨.controlCharacter, c :: cs, 1⟩
    else (readString cs).map fun (xs, rest) => (c :: xs, rest)
termination_by cs => cs.length
decreasing_by all_goals simp only [List.length_drop, List.length_cons]; omega

end SiteScript.Json
