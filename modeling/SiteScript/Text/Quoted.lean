import SiteScript.Text.Spelled

/-!
# Quoted text in messages

`quoted` is the form in which a message shows a text: between double quotes, with escapes for the
quote, the backslash, four controls and every character without a glyph.
-/

namespace SiteScript.Text

/-- How a quotation shows one character. -/
def quotedChar (c : Char) : List Char :=
  if c = '\x00' then ['\\', '0']
  else if c = '\t' then ['\\', 't']
  else if c = '\r' then ['\\', 'r']
  else if c = '\n' then ['\\', 'n']
  else if c = '"' then ['\\', '"']
  else if c = '\\' then ['\\', '\\']
  else if isSpelled c then ['\\', 'u', '\x7b'] ++ Nat.toDigits 16 c.toNat ++ ['\x7d']
  else [c]

/-- A text between double quotes. -/
def quoted (s : String) : String :=
  String.ofList ('"' :: s.toList.flatMap quotedChar ++ ['"'])

end SiteScript.Text
