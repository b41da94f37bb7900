import SiteScript.CommandLine.Arguments
import SiteScript.Json.Printer
import SiteScript.Schema.Records
import SiteScript.Site.Script

/-!
# Running commands

`Command.run` carries a command out and reports what the program prints and its exit code. It sees
files only through a `FileAccess`, so that it runs on the files of a machine as on any model of
them.
-/

namespace SiteScript

/-- Why a file cannot be read or written. -/
inductive FileFault where
  | notFound
  | notDirectory
  | isDirectory
  | nameTooLong
  | other (message : String)
deriving DecidableEq, Repr

/-- The wording of a file's fault. -/
def FileFault.message : FileFault → String
  | notFound => "No such file or directory (os error 2)"
  | notDirectory => "Not a directory (os error 20)"
  | isDirectory => "Is a directory (os error 21)"
  | nameTooLong => "File name too long (os error 36)"
  | other message => message

/-- How a program gets at files. -/
structure FileAccess (m : Type → Type) where
  read : String → m (Except FileFault ByteArray)
  write : String → ByteArray → m (Except FileFault Unit)

/-- Why a command failed: what it was doing, and what is behind that, outermost first. -/
structure Failure where
  message : String
  causes : List String := []
deriving DecidableEq, Repr

namespace Failure

/-- A text with all lines but the first indented. -/
def indentRest (indent : String) (s : String) : String :=
  String.ofList (s.toList.flatMap fun c => if c = '\n' then '\n' :: indent.toList else [c])

/-- The lines of numbered causes. -/
def numbered (index : Nat) : List String → String
  | [] => ""
  | cause :: causes =>
    let number := toString index
    "\n" ++ String.ofList (List.replicate (5 - number.length) ' ') ++ number ++ ": " ++
      indentRest "       " cause ++ numbered (index + 1) causes

/-- The text of a failure. Several causes are numbered, one is not. -/
def text (f : Failure) : String :=
  "Error: " ++ f.message ++
    (match f.causes with
      | [] => ""
      | [cause] => "\n\nCaused by:\n    " ++ indentRest "    " cause
      | causes => "\n\nCaused by:" ++ numbered 0 causes) ++ "\n"

/-- A fault and what is behind it: a fault of JSON text shows twice, with its category and bare. -/
def chain (f : Fault) : List String :=
  match f with
  | .jsonText e => [f.message, e.message]
  | .jsonShape e => [f.message, e.message]
  | _ => [f.message]

/-- A fault by itself. -/
def ofFault (f : Fault) : Failure :=
  ⟨f.message, (chain f).drop 1⟩

end Failure

/-- What a program prints, and its exit code. -/
structure Report where
  exit : Nat
  stdout : String
  stderr : String
deriving DecidableEq, Repr

namespace Report

/-- Success with a line on the standard output. -/
def line (s : String) : Report :=
  ⟨0, s ++ "\n", ""⟩

/-- A failure. -/
def failure (f : Failure) : Report :=
  ⟨1, "", f.text⟩

/-- How the program is called. -/
def usageText : String :=
  "Usage:\n" ++
    "  casper-site compile <FILE> [--indent <2|4>] [--output <FILE>]\n" ++
    "  casper-site validate <FILE>\n" ++
    "  casper-site params <FILE>\n" ++
    "  casper-site schema [--step <TYPE>]\n" ++
    "  casper-site defaults [<TYPE>]\n" ++
    "  casper-site --version\n"

/-- Arguments that no command admits. -/
def usage : Report :=
  ⟨2, "", usageText⟩

/-- The report of what succeeded, or else of the failure. -/
def ofExcept : Except Failure Report → Report
  | .ok r => r
  | .error f => failure f

end Report

namespace Command

/-- The name and version of the program. -/
def versionLine : String :=
  "casper-site 0.1.0"

variable {m : Type → Type} [Monad m] (files : FileAccess m)

/-- The site that the bytes of a file hold. -/
def siteOfBytes (file : String) (bytes : ByteArray) : Except Failure Site :=
  match String.fromUTF8? bytes with
  | none => .error ⟨"Failed to read " ++ file, ["stream did not contain valid UTF-8"]⟩
  | some text =>
    (Site.ofText text).mapError fun f => ⟨"Invalid site definition in " ++ file, Failure.chain f⟩

/-- Load the site in a file. -/
def load (file : String) : m (Except Failure Site) := do
  match ← files.read file with
  | .error e => return .error ⟨"Failed to read " ++ file, [e.message]⟩
  | .ok bytes => return siteOfBytes file bytes

/-- The script in a file's site. -/
def scriptOf (w : IndentWidth) (file : String) (s : Site) : Except Failure String :=
  (s.compile w).mapError fun f => ⟨"Failed to compile " ++ file, Failure.chain f⟩

/-- Carry out `compile`. The width is checked before the file is read. -/
def runCompile (file : String) (indent : Nat) (output : Option String) : m Report := do
  match IndentWidth.ofSpaces indent with
  | .error f => return .failure (.ofFault f)
  | .ok w =>
    match (← load files file).bind (scriptOf w file) with
    | .error f => return .failure f
    | .ok script =>
      match output with
      | none => return .line script
      | some path =>
        match ← files.write path (script ++ "\n").toUTF8 with
        | .ok () => return ⟨0, "", ""⟩
        | .error e => return .failure ⟨"Failed to write " ++ path, [e.message]⟩

/-- The line that says a site is valid. -/
def validLine (file : String) (s : Site) : String :=
  file ++ ": site '" ++ s.name ++ "' with " ++ toString s.steps.length ++ " step(s) is valid"

/-- The values of a run as JSON text. -/
def paramsText (s : Site) : String :=
  (Json.arr (s.params.map ParamDescriptor.record.write)).indented

/-- The step type of a tag. -/
def typeOf (tag : String) : Except Fault StepType :=
  StepDefinition.type { tag := tag }

/-- The schema that is asked for. -/
def schemaOf : Option String → Except Fault Json
  | none => .ok Schema.siteDocument
  | some tag => do
    let t ← typeOf tag
    Registry.full.schema t

/-- The blank definition that is asked for. -/
def defaultsOf : Option String → Except Fault Json
  | none => .ok (SiteDefinition.record.write .blank)
  | some tag => do
    let t ← typeOf tag
    let d ← Registry.full.defaults t
    .ok d.write

/-- Print a JSON value with sorted members. -/
def printJson (x : Except Fault Json) : Report :=
  .ofExcept ((x.mapError Failure.ofFault).map fun x => .line x.canonical.indented)

/-- Carry out a command. -/
def run : Command → m Report
  | version => return .line versionLine
  | compile file indent output => runCompile files file indent output
  | validate file => do
    return .ofExcept ((← load files file).map fun s => .line (validLine file s))
  | params file => do
    return .ofExcept ((← load files file).map fun s => .line (paramsText s))
  | schema step => return printJson (schemaOf step)
  | defaults step => return printJson (defaultsOf step)

/-- Carry out what the arguments ask for. -/
def runArguments (args : List String) : m Report :=
  match parse args with
  | some c => c.run files
  | none => return .usage

end Command

end SiteScript
