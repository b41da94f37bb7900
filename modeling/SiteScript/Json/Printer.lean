import SiteScript.Json.Number
import SiteScript.Json.Quoted

/-!
# Writing JSON text

`Json.compact` writes a value without any space, `Json.indented` with one item or member to a line
and two spaces for each level. Both write the members of an object in the order they stand in.
-/

namespace SiteScript.Json

/-- A string with its quotes. -/
def quoted (s : String) : List Char :=
  '"' :: escape s.toList ++ ['"']

mutual

/-- A value without spaces. -/
def print : Json → List Char
  | null => "null".toList
  | bool b => (if b then "true" else "false").toList
  | num n => n.text
  | str s => quoted s
  | arr xs => '[' :: printItems xs ++ [']']
  | obj ms => '\x7b' :: printMembers ms ++ ['\x7d']

/-- Items with commas between them. -/
def printItems : List Json → List Char
  | [] => []
  | [x] => print x
  | x :: xs => print x ++ ',' :: printItems xs

/-- Members with commas between them. -/
def printMembers : Members → List Char
  | [] => []
  | [(k, x)] => quoted k ++ ':' :: print x
  | (k, x) :: ms => quoted k ++ ':' :: print x ++ ',' :: printMembers ms

end

/-- A line feed and the indentation of a level. -/
def newLine (level : Nat) : List Char :=
  '\n' :: List.replicate (2 * level) ' '

mutual

/-- A value spread over lines; the lines inside it are indented below `level`. -/
def printLines (level : Nat) : Json → List Char
  | arr (x :: xs) => '[' :: printLineItems (level + 1) (x :: xs) ++ newLine level ++ [']']
  | obj (m :: ms) => '\x7b' :: printLineMembers (level + 1) (m :: ms) ++ newLine level ++ ['\x7d']
  | arr [] => ['[', ']']
  | obj [] => ['\x7b', '\x7d']
  | null => print null
  | bool b => print (bool b)
  | num n => print (num n)
  | str s => print (str s)

/-- Items, each on a line of its own. -/
def printLineItems (level : Nat) : List Json → List Char
  | [] => []
  | [x] => newLine level ++ printLines level x
  | x :: xs => newLine level ++ printLines level x ++ ',' :: printLineItems level xs

/-- Members, each on a line of its own. -/
def printLineMembers (level : Nat) : Members → List Char
  | [] => []
  | [(k, x)] => newLine level ++ quoted k ++ ':' :: ' ' :: printLines level x
  | (k, x) :: ms =>
    newLine level ++ quoted k ++ ':' :: ' ' :: printLines level x ++
      ',' :: printLineMembers level ms

end

/-- The text of a value on one line. -/
def compact (x : Json) : String :=
  String.ofList x.print

/-- The text of a value on several lines. -/
def indented (x : Json) : String :=
  String.ofList (x.printLines 0)

end SiteScript.Json
