import SiteScript.Decimal.Binary64

/-!
# Arguments of the command line

`Command.parse` reads the arguments of the program. Options take one value each, in the next
argument or joined to the option; they may stand before and after the operands. Two dashes alone end
the options. Arguments that no command admits are not told apart further.
-/

namespace SiteScript

/-- What the program is asked to do. -/
inductive Command where
  /-- Say the version. -/
  | version
  /-- Write the script of a site to the standard output or to a file. -/
  | compile (file : String) (indent : Nat) (output : Option String)
  /-- Check a site. -/
  | validate (file : String)
  /-- List the values that a run of a site yields. -/
  | params (file : String)
  /-- Print the schema of sites or of a step type. -/
  | schema (step : Option String)
  /-- Print a blank site or a blank step of a type. -/
  | defaults (step : Option String)
deriving DecidableEq, Repr

namespace CommandLine

/-- An option: its long name, and its short name if it has one. -/
structure OptionName where
  long : String
  short : Option Char
deriving DecidableEq, Repr

/-- Arguments sorted out: the values of options by long name, and the operands. -/
structure Arguments where
  values : List (String × String) := []
  operands : List String := []
deriving DecidableEq, Repr

namespace Arguments

/-- The arguments with an operand before them. -/
def addOperand (operand : String) (a : Arguments) : Arguments :=
  { a with operands := operand :: a.operands }

/-- The arguments with an option before them, unless it is there already. -/
def addValue? (name value : String) (a : Arguments) : Option Arguments :=
  if a.values.any fun v => v.1 = name then none
  else some { a with values := (name, value) :: a.values }

end Arguments

/-- Whether an argument can be the value of the option before it or an operand. A dash alone can. -/
def isPlain (arg : String) : Bool :=
  match arg.toList with
  | '-' :: _ :: _ => false
  | _ => true

/-- The part of an argument before an equals sign, and the part after it. -/
def splitValue (cs : List Char) : List Char × Option (List Char) :=
  match cs.dropWhile (· ≠ '=') with
  | _ :: value => (cs.takeWhile (· ≠ '='), some value)
  | [] => (cs, none)

/-- The option that an argument names, with the value joined to it. -/
def option? (known : List OptionName) (arg : List Char) :
    Option (OptionName × Option (List Char)) :=
  match arg with
  | '-' :: '-' :: cs =>
    let (name, value) := splitValue cs
    (known.find? fun o => o.long = String.ofList name).map fun o => (o, value)
  | '-' :: c :: cs =>
    let value := match cs with
      | [] => none
      | '=' :: value => some value
      | value => some value
    (known.find? fun o => o.short = some c).map fun o => (o, value)
  | _ => none

/-- Sort arguments out; `none` if they name an unknown option, one twice, or one without value. -/
def sortOut (known : List OptionName) : List String → Option Arguments
  | [] => some {}
  | "--" :: args => some { operands := args }
  | arg :: args =>
    if isPlain arg then (sortOut known args).map (Arguments.addOperand arg)
    else
      match option? known arg.toList, args with
      | some (o, some value), args =>
        (sortOut known args).bind (Arguments.addValue? o.long (String.ofList value))
      | some (o, none), value :: args =>
        if isPlain value then (sortOut known args).bind (Arguments.addValue? o.long value)
        else none
      | _, _ => none

/-- The number below `2 ^ 64` that digits write; a plus sign may stand before them. -/
def size? (s : String) : Option Nat :=
  let digits := match s.toList with
    | '+' :: cs => cs
    | cs => cs
  if digits.isEmpty || !digits.all Char.isDigit then none
  else
    let n := digits.foldl (fun n d => 10 * n + (d.toNat - '0'.toNat)) 0
    if n < Decimal.twoPow 64 then some n else none

/-- A path is not empty. -/
def path? (s : String) : Option String :=
  if s = "" then none else some s

/-- The operands of a command that takes one file. -/
def file? (a : Arguments) : Option String :=
  match a.operands with
  | [file] => path? file
  | _ => none

end CommandLine

namespace Command

open CommandLine

/-- Read the arguments after `compile`. -/
def parseCompile (args : List String) : Option Command := do
  let a ← sortOut [⟨"indent", some 'i'⟩, ⟨"output", some 'o'⟩] args
  let file ← file? a
  let indent ← match a.values.lookup "indent" with
    | some s => size? s
    | none => some 4
  match a.values.lookup "output" with
  | some s => (path? s).map fun path => compile file indent (some path)
  | none => some (compile file indent none)

/-- Read the arguments after `schema`. -/
def parseSchema (args : List String) : Option Command := do
  let a ← sortOut [⟨"step", none⟩] args
  if a.operands = [] then some (schema (a.values.lookup "step")) else none

/-- Read the arguments after `defaults`. -/
def parseDefaults (args : List String) : Option Command := do
  let a ← sortOut [] args
  match a.operands with
  | [] => some (defaults none)
  | [step] => some (defaults (some step))
  | _ => none

/-- Read the arguments of the program. -/
def parse : List String → Option Command
  | "compile" :: args => parseCompile args
  | "validate" :: args => ((sortOut [] args).bind file?).map validate
  | "params" :: args => ((sortOut [] args).bind file?).map params
  | "schema" :: args => parseSchema args
  | "defaults" :: args => parseDefaults args
  | "--version" :: _ => some version
  | arg :: _ => if ['-', 'V'].isPrefixOf arg.toList then some version else none
  | [] => none

end Command

end SiteScript
