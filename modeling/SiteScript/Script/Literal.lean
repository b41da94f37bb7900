/-!
# String literals of a script

A user's text stands in a script between single quotes. `Literal.escape` writes its characters so
that no quote, backslash or line terminator is left as it is.
-/

namespace SiteScript.Literal

/-- How a literal shows one character. -/
def escapeChar (c : Char) : List Char :=
  if c = '\\' then ['\\', '\\']
  else if c = '\'' then ['\\', '\'']
  else if c = '\n' then ['\\', 'n']
  else if c = '\r' then ['\\', 'r']
  else if c = '\u2028' then "\\u2028".toList
  else if c = '\u2029' then "\\u2029".toList
  else [c]

/-- The text between the quotes of a literal. -/
def escape (s : String) : String :=
  String.ofList (s.toList.flatMap escapeChar)

/-- A text as a literal. -/
def quote (s : String) : String :=
  "'" ++ escape s ++ "'"

end SiteScript.Literal
