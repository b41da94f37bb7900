import SiteScript.Fault
import SiteScript.Json.Record

/-!
# Indentation widths

A script is indented by two or by four spaces for each level.
-/

namespace SiteScript

/-- The width of one level. -/
inductive IndentWidth where
  | two
  | four
deriving DecidableEq, Repr

namespace IndentWidth

/-- The number of spaces of one level. -/
def spaces : IndentWidth → Nat
  | two => 2
  | four => 4

/-- One level of indentation. -/
def unit (w : IndentWidth) : String :=
  String.ofList (List.replicate w.spaces ' ')

/-- The width of a number of spaces. -/
def ofSpaces? : Nat → Option IndentWidth
  | 2 => some two
  | 4 => some four
  | _ => none

/-- The width of a number of spaces, or the fault that there is none. -/
def ofSpaces (n : Nat) : Except Fault IndentWidth :=
  match ofSpaces? n with
  | some w => .ok w
  | none => .error (.indentWidth n)

theorem ofSpaces?_spaces (w : IndentWidth) : ofSpaces? w.spaces = some w := by
  cases w <;> rfl

/-- Read a width from its number of spaces. -/
def read (x : Json) : Except ShapeFault IndentWidth := do
  let n ← x.asSize
  match ofSpaces? n with
  | some w => .ok w
  | none => .error (.badWidth n)

/-- A width as its number of spaces. -/
def write (w : IndentWidth) : Json :=
  .num (.int w.spaces)

end IndentWidth

/-- How a script is to be laid out. -/
structure CompileOptions where
  indent : IndentWidth := .four
deriving DecidableEq, Repr

/-- Options in JSON. -/
def CompileOptions.record : Record CompileOptions where
  name := "CompileOptions"
  blank := {}
  members :=
    [.optional "indent" IndentWidth.read (fun w => some w.write) indent
      fun w options => { options with indent := w }]

end SiteScript
