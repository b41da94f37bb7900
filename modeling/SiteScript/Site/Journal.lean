import SiteScript.Site.Script

/-!
# The journal of a site

What is logged when a site is built and when it is compiled.
-/

namespace SiteScript

/-- How important a log entry is. -/
inductive LogLevel where
  | debug
  | trace
deriving DecidableEq, Repr

/-- The name of a level. -/
def LogLevel.label : LogLevel → String
  | debug => "DEBUG"
  | trace => "TRACE"

/-- An entry of a log. -/
structure LogEntry where
  level : LogLevel
  message : String
deriving DecidableEq, Repr

variable {K : Kinds}

/-- Logged when the script of a step is written. -/
def Step.emitted (s : Step K) : LogEntry :=
  ⟨.trace, "Emitting " ++ s.type.tag ++ " step '" ++ s.name ++ "'"⟩

namespace Site

/-- The number of steps as messages give it. -/
def stepCount (s : Site K) : String :=
  toString s.steps.length ++ " step(s)"

/-- Logged when a site has been built. -/
def built (s : Site K) : LogEntry :=
  ⟨.debug, "Constructed site '" ++ s.name ++ "' with " ++ s.stepCount⟩

/-- Logged when a script has been put together, with its size before the last layout. -/
def compiled (s : Site K) (script : String) : LogEntry :=
  ⟨.debug, "Compiled site '" ++ s.name ++ "' (" ++ s.stepCount ++ ", " ++
    toString script.utf8ByteSize ++ " bytes)"⟩

/-- All that is logged when a site is compiled. -/
def compileLog (w : IndentWidth) (s : Site K) : List LogEntry :=
  s.steps.map Step.emitted ++
    match s.assemble w with
    | .ok script => [s.compiled script]
    | .error _ => []

end Site

end SiteScript
