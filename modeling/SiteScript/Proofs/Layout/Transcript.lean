import SiteScript.Proofs.Layout.Shown

/-!
# What a layout keeps of its script

A layout loses, adds and reorders nothing but blanks at the ends of lines (`layout_transcribes`).  Its
lines that are not blank are those of the script, trimmed and indented by levels which do not depend on
the width; between them stand as many empty lines as `between` says, and behind the last one as many as
`behind` says.
-/

namespace SiteScript.Layout

/-- The mode behind some lines of a script. -/
def modeAfter (ls : List (List Char)) : Mode :=
  (State.start.run ls).mode

/-- What becomes of blank lines between two lines that are not blank: in a comment they stay as empty
lines, in code a run of them becomes one empty line. -/
def between (mode : Mode) (gap : List (List Char)) : List (List Char) :=
  if mode = .comment then gap.map fun _ => [] else if gap = [] then [] else [[]]

/-- What becomes of blank lines at the end: in a comment they stay as empty lines, in code they go. -/
def behind (mode : Mode) (gap : List (List Char)) : List (List Char) :=
  if mode = .comment then gap.map fun _ => [] else []

/-- The lines of a layout, `shown`, against those of its script, `source`. -/
structure Transcribes (w : IndentWidth) (levels : List Nat) (source shown : List (List Char)) : Prop where
  /-- Behind the indentation, the lines that are not blank are those of the script in their order. -/
  contents : (Text.solid shown).map Text.unspaced = (Text.solid source).map Text.trim
  /-- Each of them starts with as many spaces as its level asks for. -/
  indented : (Text.solid shown).map Text.spaces = levels.map (· * w.spaces)
  /-- Two lines with nothing but blank ones between them are shown, each in its place, with the empty
  lines between them that the blank ones become. -/
  inner : ∀ before a gap b after, source = before ++ a :: (gap ++ b :: after) → Text.trim a ≠ [] →
    (∀ l ∈ gap, Text.trim l = []) → Text.trim b ≠ [] →
      ∃ above x y below,
        shown = above ++ x :: (between (modeAfter (before ++ [a])) gap ++ y :: below) ∧
          (Text.solid above).length = (Text.solid before).length ∧
          Text.unspaced x = Text.trim a ∧ Text.unspaced y = Text.trim b
  /-- Blank lines before the first line are not shown. -/
  first : ∀ gap b after, source = gap ++ b :: after → (∀ l ∈ gap, Text.trim l = []) →
    Text.trim b ≠ [] → ∃ y below, shown = y :: below ∧ Text.unspaced y = Text.trim b
  /-- The last line that is not blank is followed by what the blank ones behind it become. -/
  last : ∀ before a gap, source = before ++ a :: gap → Text.trim a ≠ [] →
    (∀ l ∈ gap, Text.trim l = []) →
      ∃ above x, shown = above ++ x :: behind (modeAfter (before ++ [a])) gap ∧
        (Text.solid above).length = (Text.solid before).length ∧ Text.unspaced x = Text.trim a
  /-- A script of blank lines shows nothing. -/
  none : (∀ l ∈ source, Text.trim l = []) → shown = []

/-! ## Rows of a line and the blank ones behind it -/

/-- Lines that end in front of some cursor have as many rows that are not blank, with the due row. -/
theorem length_solid_arrange_due {c : Cursor} {ls : List (List Char)} (h : ∀ l ∈ ls, '\n' ∉ l)
    (d : Cursor) (w : IndentWidth) :
    (Text.solid ((c.arrange ls ++ d.due).map (Row.chars w))).length = (Text.solid ls).length := by
  have htrimmed : ∀ r ∈ c.arrange ls ++ d.due, r.Trimmed := by
    refine List.forall_mem_append.2 ⟨Cursor.trimmed_of_mem_arrange h, ?_⟩
    rw [Cursor.due]
    split_ifs
    · exact List.forall_mem_singleton.2 trivial
    · exact List.forall_mem_nil _
  have hcontents := congrArg List.length (unspaced_solid_chars htrimmed w)
  rwa [List.length_map, List.filterMap_append, Cursor.filterMap_due rfl, List.append_nil,
    Cursor.contents_arrange, List.length_map] at hcontents

namespace Cursor

theorem unspaced_chars_row (c : Cursor) {l : List Char} (h : Text.trim l ≠ []) (w : IndentWidth) :
    Text.unspaced ((c.row l).chars w) = Text.trim l := by
  obtain ⟨d, ds, hd⟩ := List.exists_cons_of_ne_nil h
  rw [row, hd, Row.ofLine, Row.chars, ← hd,
    (Text.spaces_replicate_append h (Text.trim_trim l) _).2]

/-- The lines around the one of a line that is not blank. -/
theorem chars_arrange_append_cons (c : Cursor) (as : List (List Char)) {l : List Char}
    (h : Text.trim l ≠ []) (ls : List (List Char)) (w : IndentWidth) :
    (c.arrange (as ++ l :: ls)).map (Row.chars w) =
      (c.arrange as ++ (as.foldl next c).due).map (Row.chars w) ++ ((as.foldl next c).row l).chars w ::
        (Cursor.arrange ⟨true, false, (as.foldl next c).state.after (Text.trim l)⟩ ls).map
          (Row.chars w) := by
  rw [arrange_append_cons c as h, List.map_append, List.map_cons]

variable {gap : List (List Char)} (hblank : ∀ l ∈ gap, Text.trim l = [])

include hblank

/-- The rows of blank lines at the end, behind a line that has left the given state. -/
theorem chars_arrange_behind {s : State} (h : s.mode = .code ∨ s.mode = .comment) (w : IndentWidth) :
    (Cursor.arrange ⟨true, false, s⟩ gap).map (Row.chars w) = behind s.mode gap := by
  obtain hcode | hcomment := h
  · rw [(arrange_blank_of_code hblank hcode).1, behind, hcode]
    rfl
  · rw [(arrange_blank_of_comment hblank hcomment).1, behind, if_pos hcomment, List.map_map]
    rfl

/-- The rows of blank lines in front of another line, with the blank one that is due after them. -/
theorem chars_arrange_between {s : State} (h : s.mode = .code ∨ s.mode = .comment)
    (w : IndentWidth) :
    (Cursor.arrange ⟨true, false, s⟩ gap ++ (gap.foldl next ⟨true, false, s⟩).due).map (Row.chars w) =
      between s.mode gap := by
  obtain hcode | hcomment := h
  · obtain ⟨hrows, hlast⟩ := arrange_blank_of_code hblank (c := ⟨true, false, s⟩) hcode
    rw [hrows, hlast, between, hcode, if_neg (show ¬ Mode.code = .comment by decide), due]
    by_cases hgap : gap = []
    · rw [if_pos hgap, if_pos hgap]
      rfl
    · rw [if_neg hgap, if_neg hgap]
      rfl
  · obtain ⟨hrows, hlast⟩ := arrange_blank_of_comment hblank hcomment
    rw [hrows, hlast, between, if_pos hcomment, List.map_append, List.map_map]
    exact List.append_nil _

end Cursor

/-- The lines of a layout around the one of a line that is not blank.  Those behind it are the rows of
what follows in the script, in the mode in which the line leaves it. -/
theorem exists_shown_append_cons (w : IndentWidth) {script : String} {before : List (List Char)}
    {a : List Char} {after : List (List Char)}
    (hsource : Text.lines script.toList = before ++ a :: after) (ha : Text.trim a ≠ []) :
    ∃ above x s, shown w script =
        above ++ x :: (Cursor.arrange ⟨true, false, s⟩ after).map (Row.chars w) ∧
      s.mode = modeAfter (before ++ [a]) ∧ (s.mode = .code ∨ s.mode = .comment) ∧
      (Text.solid above).length = (Text.solid before).length ∧ Text.unspaced x = Text.trim a := by
  have hlines := Text.newline_not_mem_lines script.toList
  have hrows := Cursor.chars_arrange_append_cons .initial before ha after w
  have hmode : ((before.foldl Cursor.next .initial).state.after (Text.trim a)).mode =
      modeAfter (before ++ [a]) := by
    rw [modeAfter, State.run_append, Cursor.state_foldl_next]
    rfl
  rw [hsource] at hlines
  rw [shown_eq, rows, hsource]
  exact ⟨_, _, _, hrows, hmode, State.mode_after _ _,
    length_solid_arrange_due (fun l hl => hlines l (List.mem_append_left _ hl)) _ w,
    Cursor.unspaced_chars_row _ ha w⟩

/-! ## Transcripts -/

/-- A layout shows the lines of its script that are not blank, in their order, trimmed and indented by
levels that do not depend on the width, and of the blank lines what `between` and `behind` leave. -/
theorem layout_transcribes (w : IndentWidth) (script : String) :
    Transcribes w (levels script) (Text.lines script.toList) (shown w script) where
  contents := by
    rw [shown_eq, unspaced_solid_chars (trimmed_of_mem_rows _)]
    exact Cursor.contents_arrange .initial _
  indented := by
    rw [shown_eq, spaces_solid_chars (trimmed_of_mem_rows _), levels]
  inner := by
    intro before a gap b after hsource ha hblank hb
    obtain ⟨above, x, s, hshown, hmode, hs, habove, hx⟩ := exists_shown_append_cons w hsource ha
    rw [Cursor.chars_arrange_append_cons _ gap hb, Cursor.chars_arrange_between hblank hs,
      hmode] at hshown
    exact ⟨above, x, _, _, hshown, habove, hx, Cursor.unspaced_chars_row _ hb w⟩
  first := by
    intro gap b after hsource hblank hb
    obtain ⟨hgap, hlast⟩ := Cursor.arrange_blank_of_code hblank (c := .initial) rfl
    have hdue : (gap.foldl Cursor.next .initial).due = [] := by
      rw [hlast]
      split_ifs <;> rfl
    have hrows := Cursor.chars_arrange_append_cons .initial gap hb after w
    rw [hgap, hdue] at hrows
    rw [shown_eq, rows, hsource]
    exact ⟨_, _, hrows, Cursor.unspaced_chars_row _ hb w⟩
  last := by
    intro before a gap hsource ha hblank
    obtain ⟨above, x, s, hshown, hmode, hs, habove, hx⟩ := exists_shown_append_cons w hsource ha
    rw [Cursor.chars_arrange_behind hblank hs, hmode] at hshown
    exact ⟨above, x, hshown, habove, hx⟩
  none := by
    intro hblank
    have hrows := (Cursor.arrange_blank_of_code hblank (c := .initial) rfl).1
    rw [shown_eq]
    exact congrArg (List.map (Row.chars w)) hrows

example : shown .two "\n/* a\n\n\n*/\n\n\nf(\n x );\n\n" =
    ["/* a".toList, [], [], "*/".toList, [], "f(".toList, "  x );".toList] := by
  decide

end SiteScript.Layout
