import SiteScript.CommandLine.Run

/-!
# The program

Runs the command line on the files of the machine.
-/

namespace SiteScript

/-- The number and the words of the machine for what went wrong, where it has them. -/
def systemFault? : IO.Error → Option (UInt32 × String)
  | .noFileOrDirectory _ code text | .interrupted _ code text
  | .alreadyExists _ code text | .invalidArgument _ code text | .permissionDenied _ code text
  | .resourceExhausted _ code text | .inappropriateType _ code text | .noSuchThing _ code text
  | .otherError code text | .resourceBusy code text | .resourceVanished code text
  | .unsupportedOperation code text | .hardwareFault code text
  | .unsatisfiedConstraints code text | .illegalOperation code text | .protocolError code text
  | .timeExpired code text => some (code, text)
  | .unexpectedEof | .userError _ => none

/-- What went wrong with a file of the machine. -/
def fileFault (e : IO.Error) : FileFault :=
  match systemFault? e with
  | some (2, _) => .notFound
  | some (20, _) => .notDirectory
  | some (21, _) => .isDirectory
  | some (36, _) => .nameTooLong
  | some (code, text) => .other (text ++ " (os error " ++ toString code ++ ")")
  | none => .other (toString e)

/-- Access to the files of the machine. -/
def machine : FileAccess IO where
  read path := do
    try return .ok (← IO.FS.readBinFile path)
    catch e => return .error (fileFault e)
  write path bytes := do
    try
      IO.FS.writeBinFile path bytes
      return .ok ()
    catch e => return .error (fileFault e)

end SiteScript

open SiteScript in
/-- Run the program with its arguments. -/
def main (args : List String) : IO UInt32 := do
  let report ← Command.runArguments machine args
  (← IO.getStdout).putStr report.stdout
  (← IO.getStderr).putStr report.stderr
  return report.exit.toUInt32
