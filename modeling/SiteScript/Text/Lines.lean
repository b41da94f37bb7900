/-!
# Lines of a text

`lines` takes a text apart at its line feeds, `joinLines` puts lines together again.
-/

namespace SiteScript.Text

/-- The lines of a text. A line ends before a line feed, or before a carriage return and a line
feed; what follows the last line feed is a line if it is not empty. -/
def lines : List Char → List (List Char)
  | [] => []
  | '\n' :: cs => [] :: lines cs
  | '\r' :: '\n' :: cs => [] :: lines cs
  | c :: cs =>
    match lines cs with
    | [] => [[c]]
    | l :: ls => (c :: l) :: ls

/-- The first line of a text, empty if there is none. -/
def firstLine (cs : List Char) : List Char :=
  (lines cs).headD []

/-- Lines with a line feed between each two. -/
def joinLines (ls : List (List Char)) : List Char :=
  ['\n'].intercalate ls

end SiteScript.Text
