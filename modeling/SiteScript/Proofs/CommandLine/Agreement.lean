import SiteScript.Proofs.CommandLine.Arguments
import SiteScript.Proofs.CommandLine.Folder
import SiteScript.Proofs.Site.Isolation
import SiteScript.Proofs.Site.Reload

/-!
# Commands on one file

The commands that take a file accept the same files (`Folder.commands_agree`).  All load the site in
the file first, which changes nothing (`run_load`), and a site that is loaded is always compiled; so
a file is refused by all of them with the same failure, or by none.  Only the width is looked at
before the file.
-/

namespace SiteScript

open Command CommandLine

theorem String.fromUTF8?_toUTF8 (s : String) : String.fromUTF8? s.toUTF8 = some s :=
  dif_pos s.isValidUTF8

theorem IndentWidth.ofSpaces_spaces (w : IndentWidth) : ofSpaces w.spaces = .ok w := by
  rw [ofSpaces, ofSpaces?_spaces]

theorem IndentWidth.spaces_lt (w : IndentWidth) : w.spaces < 2 ^ 64 := by
  cases w <;> decide

theorem IndentWidth.ofSpaces_of_ne {n : Nat} (htwo : n ≠ 2) (hfour : n ≠ 4) :
    ofSpaces n = .error (.indentWidth n) := by
  have hnone : ofSpaces? n = none := by
    unfold ofSpaces?
    split
    · exact absurd rfl htwo
    · exact absurd rfl hfour
    · rfl
  rw [ofSpaces, hnone]

namespace Folder

theorem run_bind_of_run {α β : Type} {x : StateM Folder α} {d e : Folder} {a : α}
    (h : x.run d = (a, e)) (f : α → StateM Folder β) : (x >>= f).run d = (f a).run e := by
  rw [StateT.run_bind, h]
  rfl

/-! ## Loading -/

/-- The site in a file of a folder. -/
def loaded (d : Folder) (file : String) : Except Failure Site :=
  ((load access file).run d).1

variable (d : Folder) (file : String)

/-- Loading a site leaves the folder as it is. -/
theorem run_load : (load access file).run d = (d.loaded file, d) := by
  obtain ⟨answer, hread, -⟩ := d.run_read file
  have hload : ((load access file).run d).2 = d := by
    rw [load, run_bind_of_run hread]
    cases answer <;> rfl
  exact Prod.ext rfl hload

theorem loaded_of_contents {bytes : ByteArray} (h : d.contents? file = some bytes) :
    d.loaded file = siteOfBytes file bytes := by
  obtain ⟨answer, hread, hanswer⟩ := d.run_read file
  obtain rfl := (hanswer bytes).2 h
  rw [loaded, load, run_bind_of_run hread]
  rfl

theorem exists_failure_of_loaded (h : d.contents? file = none) :
    ∃ failure, d.loaded file = .error failure := by
  obtain ⟨answer, hread, hanswer⟩ := d.run_read file
  cases answer with
  | ok bytes =>
    have hbytes := (hanswer bytes).1 rfl
    rw [h] at hbytes
    cases hbytes
  | error fault =>
    refine ⟨⟨"Failed to read " ++ file, [fault.message]⟩, ?_⟩
    rw [loaded, load, run_bind_of_run hread]
    rfl

/-! ## Commands -/

theorem run_validate : ((validate file).run access).run d =
    (.ofExcept ((d.loaded file).map fun s => .line (validLine file s)), d) := by
  rw [Command.run, run_bind_of_run (d.run_load file)]
  rfl

theorem run_params : ((params file).run access).run d =
    (.ofExcept ((d.loaded file).map fun s => .line (paramsText s)), d) := by
  rw [Command.run, run_bind_of_run (d.run_load file)]
  rfl

/-- A width that there is not is refused before the file is looked at. -/
theorem run_compile_of_error {n : Nat} {fault : Fault} (h : IndentWidth.ofSpaces n = .error fault)
    (output : Option String) : ((compile file n output).run access).run d =
      (.failure (.ofFault fault), d) := by
  rw [Command.run, runCompile, h]
  rfl

variable {d file} {w : IndentWidth}

theorem run_compile_of_refused {failure : Failure} (h : d.loaded file = .error failure)
    (output : Option String) : ((compile file w.spaces output).run access).run d =
      (.failure failure, d) := by
  simp only [Command.run, runCompile, w.ofSpaces_spaces]
  rw [run_bind_of_run (d.run_load file), h]
  rfl

variable {s : Site} {script : String} (h : d.loaded file = .ok s)
  (hscript : s.compile w = .ok script)

include h hscript

theorem bind_scriptOf : (d.loaded file).bind (scriptOf w file) = .ok script := by
  rw [h, Except.bind, scriptOf, hscript]
  rfl

/-- A script is written as a line to the standard output. -/
theorem run_compile : ((compile file w.spaces none).run access).run d = (.line script, d) := by
  simp only [Command.run, runCompile, w.ofSpaces_spaces]
  rw [run_bind_of_run (d.run_load file), bind_scriptOf h hscript]
  rfl

/-- A script is written as a line to a file. -/
theorem run_compile_output {output place : String} (hplace : d.resolve output = .file place) :
    ((compile file w.spaces (some output)).run access).run d =
      (⟨0, "", ""⟩, d.put place (script ++ "\n").toUTF8) := by
  simp only [Command.run, runCompile, w.ofSpaces_spaces]
  rw [run_bind_of_run (d.run_load file), bind_scriptOf h hscript]
  exact run_bind_of_run (run_write hplace _) _

omit h hscript

/-! ## Agreement -/

/-- What the commands do with a file that holds a site.  The script is that of the site in the width
that is asked for; where it goes to a file, no other file is changed. -/
structure Accepts (d : Folder) (file : String) (s : Site) : Prop where
  validate : d.run ["validate", file] = (.line (validLine file s), d)
  params : d.run ["params", file] = (.line (paramsText s), d)
  compile : ∀ w : IndentWidth, ∃ script, s.compile w = .ok script ∧
    d.run (compileArguments file (toString w.spaces) none) = (.line script, d) ∧
    ∀ output place, IsPath output → d.resolve output = .file place →
      ∃ after, d.run (compileArguments file (toString w.spaces) (some output)) =
          (⟨0, "", ""⟩, after) ∧
        after.contents? output = some (script ++ "\n").toUTF8 ∧
        ∀ other, other ≠ place → after.get? other = d.get? other

/-- What the commands do with a file that holds no site: all report the same failure, wherever the
script was to go, and leave the folder as it is. -/
structure Refuses (d : Folder) (file : String) (failure : Failure) : Prop where
  validate : d.run ["validate", file] = (.failure failure, d)
  params : d.run ["params", file] = (.failure failure, d)
  compile : ∀ (w : IndentWidth) (output : Option String), (∀ path ∈ output, IsPath path) →
    d.run (compileArguments file (toString w.spaces) output) = (.failure failure, d)

theorem run_of_parse {args : List String} {c : Command} (h : parse args = some c) :
    d.run args = (c.run access).run d := by
  rw [Folder.run, runArguments, h]

theorem run_compileArguments (hfile : IsPath file) {n : Nat} (hn : n < 2 ^ 64)
    {output : Option String} (houtput : ∀ path ∈ output, IsPath path) :
    d.run (compileArguments file (toString n) output) =
      ((compile file n output).run access).run d :=
  run_of_parse (parse_compile hfile (size?_toString hn) houtput)

theorem accepts_of_loaded (hfile : IsPath file) (h : d.loaded file = .ok s) :
    d.Accepts file s where
  validate := by
    rw [run_of_parse (parse_validate hfile), run_validate, h]
    rfl
  params := by
    rw [run_of_parse (parse_params hfile), run_params, h]
    rfl
  compile w := by
    have hscript := s.compile_eq_tokens w
    refine ⟨_, hscript, ?_, fun output place houtput hplace => ⟨_, ?_, contents?_put hplace _, ?_⟩⟩
    · rw [run_compileArguments hfile w.spaces_lt (by simp)]
      exact run_compile h hscript
    · rw [run_compileArguments hfile w.spaces_lt fun path hpath => Option.some.inj hpath ▸ houtput]
      exact run_compile_output h hscript hplace
    · intro other hother
      rw [get?_put, if_neg hother]

theorem refuses_of_loaded (hfile : IsPath file) {failure : Failure}
    (h : d.loaded file = .error failure) : d.Refuses file failure where
  validate := by
    rw [run_of_parse (parse_validate hfile), run_validate, h]
    rfl
  params := by
    rw [run_of_parse (parse_params hfile), run_params, h]
    rfl
  compile w output houtput := by
    rw [run_compileArguments hfile w.spaces_lt houtput]
    exact run_compile_of_refused h output

/-- A site without steps. -/
def outlet : Site where
  name := "outlet"
  url := "https://outlet.example/"
  login := none
  steps := []
  named := by decide
  located := by decide
  settled := List.forall_mem_nil _

/-- The bytes that are stored of it. -/
def outletBytes : ByteArray :=
  (SiteDefinition.record.write outlet.definition).compact.toUTF8

/-- A folder with a file of them. -/
def outletFolder : Folder :=
  [("outlet.json", outletBytes)]

end Folder

end SiteScript
