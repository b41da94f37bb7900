import SiteScript.Script.Width
import SiteScript.Text.Blank
import SiteScript.Text.Lines

/-!
# Layout of scripts

The layout of a script takes the blanks off every line and indents the line by the nesting of the
brackets before it. Brackets in strings and comments do not count; a line adds at most one level,
however many brackets it opens. Blank lines before the first line and after the last one go, and
each run of blank lines between two lines becomes one; inside a block comment they all stay.

`rows` arranges the lines without regard to the width, `Row.chars` indents one, `layout` does both.
-/

namespace SiteScript.Layout

/-- What the characters of a line are part of. -/
inductive Mode where
  | code
  | string (quote : Char)
  /-- After a backslash in a string. -/
  | escaped (quote : Char)
  | comment
  /-- After an asterisk in a block comment. -/
  | commentStar
deriving DecidableEq, Repr

/-- An open bracket and the level of the line that opened it. -/
structure Opened where
  bracket : Char
  level : Nat
deriving DecidableEq, Repr

/-- What is open at the end of a line; the innermost bracket comes first. -/
structure State where
  mode : Mode
  stack : List Opened
deriving DecidableEq, Repr

def isQuote (c : Char) : Bool :=
  c = '\'' || c = '"' || c = '\x60'

def isOpener (c : Char) : Bool :=
  c = '(' || c = '[' || c = '\x7b'

def isCloser (c : Char) : Bool :=
  c = ')' || c = ']' || c = '\x7d'

/-- The bracket that closes `c`, if `c` opens one. -/
def closer? (c : Char) : Option Char :=
  if c = '(' then some ')'
  else if c = '[' then some ']'
  else if c = '\x7b' then some '\x7d'
  else none

/-- Whether `c` closes the innermost open bracket. -/
def closesTop (c : Char) : List Opened → Bool
  | [] => false
  | o :: _ => closer? o.bracket == some c

/-! ## Scanning a line -/

/-- The mode after a character of code. -/
def codeMode (c : Char) : Mode :=
  if isQuote c then .string c else .code

/-- The open brackets after a character of code on a line of the given level. A closing bracket that
does not match the innermost open one changes nothing. -/
def codeStack (level : Nat) (c : Char) (stack : List Opened) : List Opened :=
  if isOpener c then ⟨c, level⟩ :: stack
  else if isCloser c && closesTop c stack then stack.tail
  else stack

/-- The mode after a character of a string. -/
def stringMode (quote c : Char) : Mode :=
  if c = '\\' then .escaped quote else if c = quote then .code else .string quote

/-- The mode after a character of a block comment. -/
def commentMode (c : Char) : Mode :=
  if c = '*' then .commentStar else .comment

/-- The mode after a character that follows an asterisk in a block comment. -/
def starMode (c : Char) : Mode :=
  if c = '/' then .code else commentMode c

/-- Read the characters of a line of the given level. Two slashes in code end the line. -/
def scan (level : Nat) : Mode → List Opened → List Char → State
  | mode, stack, [] => ⟨mode, stack⟩
  | .code, stack, '/' :: '/' :: _ => ⟨.code, stack⟩
  | .code, stack, '/' :: '*' :: cs => scan level .comment stack cs
  | .code, stack, c :: cs => scan level (codeMode c) (codeStack level c stack) cs
  | .string quote, stack, c :: cs => scan level (stringMode quote c) stack cs
  | .escaped quote, stack, _ :: cs => scan level (.string quote) stack cs
  | .comment, stack, c :: cs => scan level (commentMode c) stack cs
  | .commentStar, stack, c :: cs => scan level (starMode c) stack cs

/-- The mode at the start of the next line; an open string ends with its line. -/
def Mode.nextLine : Mode → Mode
  | .string _ | .escaped _ | .code => .code
  | .comment | .commentStar => .comment

/-! ## Arranging lines -/

/-- The level of a line inside the innermost open bracket. -/
def bodyLevel : List Opened → Nat
  | [] => 0
  | o :: _ => o.level + 1

/-- The level of a line of code. One that starts with a closing bracket stands at the level of the
line that opened it, or one level out if it closes nothing. -/
def codeLevel (stack : List Opened) : List Char → Nat
  | [] => bodyLevel stack
  | c :: _ =>
    if isCloser c then
      match stack with
      | o :: _ => if closesTop c stack then o.level else bodyLevel stack - 1
      | [] => 0
    else bodyLevel stack

/-- The level of a line. -/
def lineLevel (state : State) (line : List Char) : Nat :=
  if state.mode = .code then codeLevel state.stack line else bodyLevel state.stack

/-- A line of an arranged script. -/
inductive Row where
  | blank
  | line (level : Nat) (content : List Char)
deriving DecidableEq, Repr

/-- The row of a line without blanks at its ends. -/
def Row.ofLine (level : Nat) : List Char → Row
  | [] => .blank
  | content@(_ :: _) => .line level content

/-- What is open after a line. -/
def State.after (state : State) (line : List Char) : State :=
  let s := scan (lineLevel state line) state.mode state.stack line
  ⟨s.mode.nextLine, s.stack⟩

/-- Arrange lines. `started` tells whether there are rows before them, `gap` whether a blank row is
due before the next one. -/
def arrange (started gap : Bool) (state : State) : List (List Char) → List Row
  | [] => []
  | l :: ls =>
    let line := Text.trim l
    if line = [] ∧ state.mode = .code then arrange started started state ls
    else
      let row := Row.ofLine (lineLevel state line) line
      let rest := arrange true false (state.after line) ls
      if gap then .blank :: row :: rest else row :: rest

/-- The rows of a script. -/
def rows (cs : List Char) : List Row :=
  arrange false false ⟨.code, []⟩ (Text.lines cs)

/-! ## Indenting -/

/-- The characters of a row. -/
def Row.chars (w : IndentWidth) : Row → List Char
  | blank => []
  | line level content => List.replicate (level * w.spaces) ' ' ++ content

/-- A script with its lines indented by nesting. -/
def layout (w : IndentWidth) (script : String) : String :=
  String.ofList (Text.joinLines ((rows script.toList).map (Row.chars w)))

end SiteScript.Layout
