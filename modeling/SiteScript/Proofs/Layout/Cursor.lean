import Mathlib.Tactic.SplitIfs
import SiteScript.Proofs.Text.Lines
import SiteScript.Script.Layout

/-!
# Arranging a script line by line

`Layout.arrange` as a machine: a `Cursor` is what it remembers between two lines, `Cursor.emit` are
the rows that one line adds, `Cursor.next` is the cursor after it.  The main results are that the
arrangement of a script can be cut between any two lines (`arrange_append`), that arranging the
indented rows once more gives the same rows (`arrange_map_chars`), and that a *fragment*, whose first
line is not blank and which ends on a line of code with nothing open, is arranged inside a script
as it is on its own (`Fragment.arrange_append`).
-/

namespace SiteScript.Layout

theorem Mode.nextLine_nextLine (m : Mode) : m.nextLine.nextLine = m.nextLine := by
  cases m <;> rfl

/-! ## Rows -/

theorem Row.chars_blank (w : IndentWidth) : Row.blank.chars w = [] := rfl

/-- Indenting a trimmed line and trimming it again gives the line. -/
theorem Row.trim_chars_ofLine (w : IndentWidth) (level : Nat) (l : List Char) :
    Text.trim ((Row.ofLine level (Text.trim l)).chars w) = Text.trim l := by
  rcases h : Text.trim l with _ | ⟨c, cs⟩
  · rfl
  · have hpad : ∀ d ∈ List.replicate (level * w.spaces) ' ', Text.isBlank d = true := by
      intro d hd
      rw [List.eq_of_mem_replicate hd]
      decide
    rw [Row.ofLine, Row.chars, Text.trim_append_of_blank hpad, ← h, Text.trim_trim]

/-! ## Cursors -/

/-- What is known before a line: whether there are rows already, whether a blank row is due, and
what is open. -/
structure Cursor where
  started : Bool
  gap : Bool
  state : State

namespace Cursor

/-- The cursor before the first line of a script. -/
def initial : Cursor := ⟨false, false, ⟨.code, []⟩⟩

/-- The cursor after a line of code with nothing open. -/
def ready : Cursor := ⟨true, false, ⟨.code, []⟩⟩

/-- The rows of some lines. -/
def arrange (c : Cursor) (ls : List (List Char)) : List Row :=
  Layout.arrange c.started c.gap c.state ls

/-- A blank line of code adds no row of its own. -/
def Skips (c : Cursor) (l : List Char) : Prop := Text.trim l = [] ∧ c.state.mode = .code

instance (c : Cursor) (l : List Char) : Decidable (c.Skips l) := by
  unfold Skips
  infer_instance

/-- The row of a line that is not skipped. -/
def row (c : Cursor) (l : List Char) : Row := Row.ofLine (lineLevel c.state (Text.trim l)) (Text.trim l)

/-- The rows that a line adds. -/
def emit (c : Cursor) (l : List Char) : List Row :=
  if c.Skips l then [] else if c.gap then [.blank, c.row l] else [c.row l]

/-- The cursor after a line. -/
def next (c : Cursor) (l : List Char) : Cursor :=
  if c.Skips l then ⟨c.started, c.started, c.state⟩ else ⟨true, false, c.state.after (Text.trim l)⟩

/-- The blank row that is due before the next line. -/
def due (c : Cursor) : List Row :=
  if c.gap then [.blank] else []

/-- The cursor without a blank row due, as it is when that row stands among the lines. -/
def settle (c : Cursor) : Cursor := ⟨c.started, false, c.state⟩

/-! ## Steps and runs -/

theorem arrange_cons (c : Cursor) (l : List Char) (ls : List (List Char)) :
    c.arrange (l :: ls) = c.emit l ++ (c.next l).arrange ls := by
  by_cases h : c.Skips l
  · rw [emit, next, if_pos h, if_pos h, arrange, Layout.arrange]
    exact if_pos h
  · rw [emit, next, if_neg h, if_neg h, arrange, Layout.arrange]
    refine (if_neg h).trans ?_
    cases c.gap <;> rfl

theorem arrange_append (c : Cursor) (as bs : List (List Char)) :
    c.arrange (as ++ bs) = c.arrange as ++ (as.foldl next c).arrange bs := by
  induction as generalizing c with
  | nil => rfl
  | cons a as ih => rw [List.cons_append, arrange_cons, arrange_cons, ih, List.append_assoc]; rfl

theorem emit_of_not_skips {c : Cursor} {l : List Char} (h : ¬ c.Skips l) :
    c.emit l = c.due ++ [c.row l] := by
  rw [emit, if_neg h, due]
  split_ifs <;> rfl

/-- What holds of every cursor of a run: a blank row is due only between rows and in code, and no
string is open between two lines. -/
structure Sound (c : Cursor) : Prop where
  started_of_gap : c.gap = true → c.started = true
  code_of_gap : c.gap = true → c.state.mode = .code
  nextLine_mode : c.state.mode.nextLine = c.state.mode

theorem sound_initial : initial.Sound := ⟨nofun, nofun, rfl⟩

theorem sound_ready : ready.Sound := ⟨nofun, nofun, rfl⟩

theorem Sound.next {c : Cursor} (h : c.Sound) (l : List Char) : (c.next l).Sound := by
  by_cases hs : c.Skips l
  · rw [Cursor.next, if_pos hs]
    exact ⟨id, fun _ => hs.2, h.nextLine_mode⟩
  · rw [Cursor.next, if_neg hs]
    exact ⟨nofun, nofun, Mode.nextLine_nextLine _⟩

theorem Sound.foldl_next {c : Cursor} (h : c.Sound) (ls : List (List Char)) :
    (ls.foldl Cursor.next c).Sound := by
  induction ls generalizing c with
  | nil => exact h
  | cons l ls ih => exact ih (h.next l)

/-! ## Arranging rows again -/

theorem skips_chars_row_iff (c : Cursor) (w : IndentWidth) (l : List Char) :
    c.Skips ((c.row l).chars w) ↔ c.Skips l := by
  rw [Skips, Skips, row, Row.trim_chars_ofLine]

theorem row_chars_row (c d : Cursor) (h : d.state = c.state) (w : IndentWidth) (l : List Char) :
    d.row ((c.row l).chars w) = c.row l := by
  rw [row, row, Row.trim_chars_ofLine, h]

/-- The rows that a line has added add themselves again, and lead to the same cursor. -/
theorem Sound.emit_again {c : Cursor} (h : c.Sound) (w : IndentWidth) (l : List Char) :
    c.settle.arrange ((c.emit l).map (Row.chars w)) = c.emit l ∧
      ((c.emit l).map (Row.chars w)).foldl Cursor.next c.settle = (c.next l).settle := by
  by_cases hs : c.Skips l
  · rw [emit, Cursor.next, if_pos hs, if_pos hs]
    exact ⟨rfl, rfl⟩
  have hrow (d : Cursor) (hd : d.state = c.state) : ¬ d.Skips ((c.row l).chars w) := by
    rw [Skips, hd]
    exact fun e => hs ((c.skips_chars_row_iff w l).1 e)
  have hafter : Text.trim ((c.row l).chars w) = Text.trim l := Row.trim_chars_ofLine ..
  rw [emit, Cursor.next, if_neg hs, if_neg hs]
  by_cases hg : c.gap = true
  · -- The blank row is skipped, which makes it due again before the row of the line.
    have hblank : c.settle.Skips [] := ⟨rfl, h.code_of_gap hg⟩
    have hskip : c.settle.next [] = ⟨true, true, c.state⟩ := by
      rw [Cursor.next, if_pos hblank, settle, h.started_of_gap hg]
    have hne := hrow ⟨true, true, c.state⟩ rfl
    simp only [if_pos hg, List.map_cons, List.map_nil, Row.chars_blank, List.foldl_cons, List.foldl_nil,
      arrange_cons, hskip]
    refine ⟨?_, ?_⟩
    · rw [emit, if_pos hblank, emit, if_neg hne, row_chars_row c ⟨true, true, c.state⟩ rfl]
      rfl
    · rw [Cursor.next, if_neg hne, hafter]
      rfl
  · have hne := hrow c.settle rfl
    simp only [if_neg hg, List.map_cons, List.map_nil, List.foldl_cons, List.foldl_nil, arrange_cons]
    refine ⟨?_, ?_⟩
    · rw [emit, if_neg hne, row_chars_row c c.settle rfl]
      rfl
    · rw [Cursor.next, if_neg hne, hafter]
      rfl

/-- Arranging the indented rows of some lines gives the rows of the lines and leaves the same things
open, whatever the width. -/
theorem Sound.arrange_map_chars {c : Cursor} (h : c.Sound) (w : IndentWidth)
    (ls : List (List Char)) :
    c.settle.arrange ((c.arrange ls).map (Row.chars w)) = c.arrange ls ∧
      ((c.arrange ls).map (Row.chars w)).foldl Cursor.next c.settle =
        (ls.foldl Cursor.next c).settle := by
  induction ls generalizing c with
  | nil => exact ⟨rfl, rfl⟩
  | cons l ls ih =>
    obtain ⟨hrows, hnext⟩ := h.emit_again w l
    obtain ⟨hrest, hlast⟩ := ih (h.next l)
    rw [arrange_cons, List.map_append, arrange_append, List.foldl_append, hrows, hnext, hrest]
    exact ⟨rfl, hlast⟩

/-! ## Fragments -/

theorem next_of_trim_ne_nil (c : Cursor) {l : List Char} (h : Text.trim l ≠ []) :
    c.next l = ⟨true, false, c.state.after (Text.trim l)⟩ := by
  rw [next, if_neg fun hs => h hs.1]

theorem emit_of_trim_ne_nil {c : Cursor} (hg : c.gap = false) {l : List Char}
    (h : Text.trim l ≠ []) : c.emit l = [c.row l] := by
  rw [emit_of_not_skips fun hs => h hs.1, due, hg]
  rfl

/-- A line that is not blank has a row of its own, behind a blank one that is due. -/
theorem arrange_cons_of_solid (c : Cursor) {l : List Char} (h : Text.trim l ≠ [])
    (ls : List (List Char)) :
    c.arrange (l :: ls) =
      c.due ++ c.row l :: Cursor.arrange ⟨true, false, c.state.after (Text.trim l)⟩ ls := by
  rw [arrange_cons, next_of_trim_ne_nil c h, emit_of_not_skips fun hs => h hs.1, List.append_assoc]
  rfl

theorem codeLevel_nil (l : List Char) : codeLevel [] l = 0 := by
  cases l with
  | nil => rfl
  | cons c l =>
    rw [codeLevel]
    split_ifs <;> rfl

/-- A line on its own is not indented. -/
theorem map_chars_arrange_singleton {l : List Char} (h : Text.trim l ≠ []) (w : IndentWidth) :
    (initial.arrange [l]).map (Row.chars w) = [Text.trim l] := by
  have hlevel : lineLevel initial.state (Text.trim l) = 0 := codeLevel_nil _
  obtain ⟨c, cs, hc⟩ := List.exists_cons_of_ne_nil h
  rw [arrange_cons, emit_of_trim_ne_nil rfl h, row, hlevel, hc, Row.ofLine]
  simp only [arrange, Layout.arrange, List.append_nil, List.map_cons, List.map_nil, Row.chars,
    Nat.zero_mul, List.replicate_zero, List.nil_append]

/-- A blank row that is due comes before the row of the next line. -/
theorem arrange_due {c : Cursor} (hg : c.gap = false) {l : List Char} (h : Text.trim l ≠ [])
    (ls : List (List Char)) :
    Cursor.arrange ⟨true, true, c.state⟩ (l :: ls) = .blank :: c.arrange (l :: ls) := by
  rw [arrange_cons_of_solid _ h, arrange_cons_of_solid c h, due, due, hg]
  rfl

end Cursor

/-- Lines that begin with a line that is not blank, and end on a line of code with nothing open. -/
structure Fragment (ls : List (List Char)) : Prop where
  solid : ∃ l ∈ ls.head?, Text.trim l ≠ []
  closed : ls.foldl Cursor.next .initial = .ready

namespace Fragment

open Cursor

variable {ls : List (List Char)}

/-- Behind other lines a fragment is arranged as at the beginning of a script. -/
theorem ready_eq_initial (h : Fragment ls) :
    ready.arrange ls = initial.arrange ls ∧ ls.foldl next ready = ready := by
  obtain ⟨l, hl, hne⟩ := h.solid
  obtain ⟨ls, rfl⟩ := List.head?_eq_some_iff.1 hl
  have hstep : ready.next l = initial.next l := by
    rw [next_of_trim_ne_nil _ hne, next_of_trim_ne_nil _ hne]
    rfl
  have hclosed := h.closed
  rw [List.foldl_cons] at hclosed ⊢
  rw [arrange_cons, arrange_cons, hstep, emit_of_trim_ne_nil rfl hne, emit_of_trim_ne_nil rfl hne]
  exact ⟨rfl, hclosed⟩

/-- A fragment in a script: its rows are those that it has on its own. -/
theorem arrange_append (h : Fragment ls) (rest : List (List Char)) :
    ready.arrange (ls ++ rest) = initial.arrange ls ++ ready.arrange rest := by
  rw [Cursor.arrange_append, h.ready_eq_initial.1, h.ready_eq_initial.2]

theorem arrange_ne_nil (h : Fragment ls) : initial.arrange ls ≠ [] := by
  obtain ⟨l, hl, hne⟩ := h.solid
  obtain ⟨ls, rfl⟩ := List.head?_eq_some_iff.1 hl
  rw [arrange_cons, emit_of_trim_ne_nil rfl hne]
  exact List.cons_ne_nil _ _

theorem initial_append (h : Fragment ls) (rest : List (List Char)) :
    initial.arrange (ls ++ rest) = initial.arrange ls ++ ready.arrange rest := by
  rw [Cursor.arrange_append, h.closed]

/-- A blank line before a fragment becomes a blank row. -/
theorem blank_append (h : Fragment ls) (rest : List (List Char)) :
    ready.arrange ([] :: (ls ++ rest)) = .blank :: (initial.arrange ls ++ ready.arrange rest) := by
  obtain ⟨l, hl, hne⟩ := h.solid
  obtain ⟨ls, rfl⟩ := List.head?_eq_some_iff.1 hl
  have hskip : ready.Skips [] := ⟨rfl, rfl⟩
  have hstep : ready.arrange ([] :: (l :: ls ++ rest)) =
      Cursor.arrange ⟨true, true, ready.state⟩ (l :: ls ++ rest) := by
    rw [arrange_cons, emit, if_pos hskip, next, if_pos hskip]
    rfl
  rw [hstep, List.cons_append, arrange_due rfl hne, ← List.cons_append, h.arrange_append]

/-- A fragment that has been laid out stays as it is when the script around it is laid out, and the
scripts need not have the same width. -/
theorem arrange_chars_append (h : Fragment ls) (w : IndentWidth) (rest : List (List Char)) :
    ready.arrange ((initial.arrange ls).map (Row.chars w) ++ rest) =
      initial.arrange ls ++ ready.arrange rest := by
  obtain ⟨hrows, hlast⟩ := sound_ready.arrange_map_chars w ls
  rw [h.ready_eq_initial.2] at hlast
  rw [h.ready_eq_initial.1] at hrows hlast
  rw [Cursor.arrange_append]
  exact congrArg₂ (fun rows c => rows ++ Cursor.arrange c rest) hrows hlast

end Fragment

end SiteScript.Layout
