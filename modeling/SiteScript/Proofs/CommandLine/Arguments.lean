import Mathlib.Data.List.Basic
import SiteScript.CommandLine.Arguments

/-!
# Arguments that are read

How the arguments of a command that takes a file are read: the file is an operand, and an option
takes the argument behind it.  Every number that fits 64 bits is read back from its digits
(`size?_toString`).
-/

namespace SiteScript

namespace CommandLine

/-! ## Numbers -/

theorem size?_of_digits {s : String} (hne : s.toList ≠ [])
    (hdigit : ∀ c ∈ s.toList, c.isDigit = true)
    (hlt : Nat.ofDigitChars 10 s.toList 0 < Decimal.twoPow 64) :
    size? s = some (Nat.ofDigitChars 10 s.toList 0) := by
  have hall : s.toList.all Char.isDigit = true := List.all_eq_true.2 hdigit
  have hempty : s.toList.isEmpty = false := by simpa using hne
  unfold size?
  split
  · next cs hcs =>
    have hplus : '+'.isDigit = true := hdigit '+' (by rw [hcs]; exact List.mem_cons_self)
    exact absurd hplus (by decide)
  · simp only [hall, hempty]
    exact if_pos hlt

/-- A number is read back from its decimal digits. -/
theorem size?_toString {n : Nat} (h : n < Decimal.twoPow 64) : size? (toString n) = some n := by
  have hdigits : (toString n).toList = Nat.toDigits 10 n := by
    rw [Nat.toString_eq_repr, Nat.toList_repr]
  have hvalue : Nat.ofDigitChars 10 (toString n).toList 0 = n := by
    rw [hdigits, Nat.ofDigitChars_ten_toDigits]
  have hread : size? (toString n) = some (Nat.ofDigitChars 10 (toString n).toList 0) := by
    apply size?_of_digits
    · rw [hdigits]
      exact Nat.toDigits_ne_nil
    · intro c hc
      rw [hdigits] at hc
      exact Nat.isDigit_of_mem_toDigits (by omega) (by omega) hc
    · rwa [hvalue]
  rwa [hvalue] at hread

theorem isPlain_of_size? {s : String} {n : Nat} (h : size? s = some n) : isPlain s = true := by
  unfold isPlain
  split
  · next c cs hcs =>
    have hdash : '-'.isDigit = false := by decide
    simp [size?, hcs, hdash] at h
  · rfl

/-! ## Operands and options -/

/-- An argument that stands for a file: a dash does not begin it, unless it is all of it, and it is
not empty. -/
structure IsPath (arg : String) : Prop where
  plain : isPlain arg = true
  ne_empty : arg ≠ ""

variable {known : List OptionName}

theorem sortOut_cons {arg : String} (h : arg ≠ "--") (args : List String) :
    sortOut known (arg :: args) =
      if isPlain arg then (sortOut known args).map (Arguments.addOperand arg)
      else
        match option? known arg.toList, args with
        | some (o, some value), args =>
          (sortOut known args).bind (Arguments.addValue? o.long (String.ofList value))
        | some (o, none), value :: args =>
          if isPlain value then (sortOut known args).bind (Arguments.addValue? o.long value)
          else none
        | _, _ => none := by
  rw [sortOut.eq_def]
  split
  · next heq => cases heq
  · next heq => exact absurd (List.cons.inj heq).1 h
  · next heq =>
    cases heq
    rfl

/-- A plain argument is kept as an operand. -/
theorem sortOut_operand {arg : String} (h : isPlain arg = true) (args : List String) :
    sortOut known (arg :: args) = (sortOut known args).map (Arguments.addOperand arg) := by
  have hne : arg ≠ "--" := by
    rintro rfl
    exact absurd h (by decide)
  rw [sortOut_cons hne, if_pos h]

/-- An option takes the plain argument behind it. -/
theorem sortOut_option {name value : String} {o : OptionName} (hne : name ≠ "--")
    (hname : isPlain name = false) (ho : option? known name.toList = some (o, none))
    (hvalue : isPlain value = true) (args : List String) :
    sortOut known (name :: value :: args) =
      (sortOut known args).bind (Arguments.addValue? o.long value) := by
  rw [sortOut_cons hne, if_neg (by rw [hname]; decide), ho]
  exact if_pos hvalue

theorem file?_of_isPath {file : String} (h : IsPath file) (values : List (String × String)) :
    file? ⟨values, [file]⟩ = some file :=
  if_neg h.ne_empty

end CommandLine

namespace Command

open CommandLine

/-! ## Commands that take a file -/

variable {file : String} (h : IsPath file)

/-- The arguments of `compile` with a width and perhaps a file for the script. -/
def compileArguments (file indent : String) (output : Option String) : List String :=
  "compile" :: file :: "--indent" :: indent :: output.elim [] fun path => ["--output", path]

include h

theorem parse_validate : parse ["validate", file] = some (validate file) := by
  rw [parse, sortOut_operand h.plain, sortOut, Option.map_some, Option.bind_some,
    Arguments.addOperand, file?_of_isPath h]
  rfl

theorem parse_params : parse ["params", file] = some (params file) := by
  rw [parse, sortOut_operand h.plain, sortOut, Option.map_some, Option.bind_some,
    Arguments.addOperand, file?_of_isPath h]
  rfl

theorem parse_compile {indent : String} {n : Nat} (hindent : size? indent = some n)
    {output : Option String} (houtput : ∀ path ∈ output, IsPath path) :
    parse (compileArguments file indent output) = some (compile file n output) := by
  have hplain : isPlain indent = true := isPlain_of_size? hindent
  have hsorted : sortOut [⟨"indent", some 'i'⟩, ⟨"output", some 'o'⟩]
      (file :: "--indent" :: indent :: output.elim [] fun path => ["--output", path]) =
      some ⟨("indent", indent) :: output.elim [] fun path => [("output", path)], [file]⟩ := by
    rw [sortOut_operand h.plain,
      sortOut_option (o := ⟨"indent", some 'i'⟩) (by decide) (by decide) (by decide) hplain]
    cases output with
    | none => rfl
    | some path =>
      have hpath : isPlain path = true := (houtput path rfl).plain
      rw [Option.elim_some,
        sortOut_option (o := ⟨"output", some 'o'⟩) (by decide) (by decide) (by decide) hpath]
      rfl
  rw [compileArguments, parse, parseCompile, hsorted]
  simp only [bind, Option.bind_some, file?_of_isPath h, List.lookup_cons_self, hindent]
  cases output with
  | none => rfl
  | some path =>
    have hpath : path? path = some path := if_neg (houtput path rfl).ne_empty
    show (path? path).map _ = _
    rw [hpath]
    rfl

end Command

end SiteScript
