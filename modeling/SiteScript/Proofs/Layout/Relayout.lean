import Mathlib.Data.List.Basic
import SiteScript.Proofs.Layout.Cursor

/-!
# Laying out a script again

A layout is a text of the rows that it shows, so laying it out again, with the same width or with
another one, gives these rows again.  There is one exception: a blank row at the end.  It comes from
a blank line in a block comment that is never closed (`OpenEnded`), it shows as a line feed behind
the line before it, and as such it is no line when the text is taken apart.  So each further layout
of such a script is shorter by one line feed, and every other layout is final
(`layout_layout_eq_iff`).
-/

namespace SiteScript.Layout

/-! ## Rows of lines -/

/-- A row whose content has blanks at neither end and no line feed, and is not empty. -/
def Row.Trimmed : Row → Prop
  | blank => True
  | line _ content => content ≠ [] ∧ '\n' ∉ content ∧ Text.trim content = content

theorem Row.ofLine_eq_blank_iff {level : Nat} {l : List Char} :
    ofLine level l = .blank ↔ l = [] := by
  cases l <;> simp [ofLine]

theorem Row.trimmed_ofLine (level : Nat) {l : List Char} (h : '\n' ∉ l) :
    (ofLine level (Text.trim l)).Trimmed := by
  rcases hl : Text.trim l with _ | ⟨c, cs⟩
  · trivial
  · rw [ofLine, ← hl]
    exact ⟨by simp [hl], fun hn => h ((Text.trim_sublist l).subset hn), Text.trim_trim l⟩

theorem Row.Trimmed.chars_eq_nil_iff {r : Row} (h : r.Trimmed) (w : IndentWidth) :
    r.chars w = [] ↔ r = .blank := by
  cases r with
  | blank => simp [chars]
  | line level content => simp [chars, h.1]

theorem Row.Trimmed.isLine {r : Row} (h : r.Trimmed) (w : IndentWidth) :
    Text.IsLine (r.chars w) := by
  cases r with
  | blank => exact Text.isLine_nil
  | line level content =>
    obtain ⟨hne, hn, htrim⟩ := h
    have hcontent : Text.IsLine content := htrim ▸ Text.isLine_trim hn
    refine ⟨fun hmem => ?_, ?_⟩
    · obtain hmem | hmem := List.mem_append.1 hmem
      · exact absurd (List.eq_of_mem_replicate hmem) (by decide)
      · exact hn hmem
    · rw [chars, List.getLast?_append_of_ne_nil _ hne]
      exact hcontent.2

/-- The last of some lines is blank and stands in a block comment that is not closed. -/
def OpenEnded (ls : List (List Char)) : Prop :=
  (ls.foldl Cursor.next .initial).state.mode = .comment ∧ ∃ l ∈ ls.getLast?, Text.trim l = []

namespace Cursor

theorem trimmed_of_mem_arrange {c : Cursor} {ls : List (List Char)} (h : ∀ l ∈ ls, '\n' ∉ l) :
    ∀ r ∈ c.arrange ls, r.Trimmed := by
  induction ls generalizing c with
  | nil => exact List.forall_mem_nil _
  | cons l ls ih =>
    obtain ⟨hl, hls⟩ := List.forall_mem_cons.1 h
    have hrow : (c.row l).Trimmed := Row.trimmed_ofLine _ hl
    rw [arrange_cons, List.forall_mem_append]
    refine ⟨?_, ih hls⟩
    unfold emit
    split_ifs
    · exact List.forall_mem_nil _
    · exact List.forall_mem_cons.2 ⟨trivial, List.forall_mem_singleton.2 hrow⟩
    · exact List.forall_mem_singleton.2 hrow

/-! ## The last row -/

/-- Between two lines only a comment can be open. -/
theorem Sound.mode_eq_comment {c : Cursor} (h : c.Sound) (hc : c.state.mode ≠ .code) :
    c.state.mode = .comment := by
  have hnext := h.nextLine_mode
  cases hmode : c.state.mode with
  | comment => rfl
  | code => exact absurd hmode hc
  | string quote | escaped quote | commentStar =>
    rw [hmode] at hnext
    cases hnext

/-- A blank line in a comment adds a blank row and leaves the comment open. -/
theorem Sound.emit_of_blank {c : Cursor} (h : c.Sound) {l : List Char} (hl : Text.trim l = [])
    (hc : c.state.mode ≠ .code) : c.emit l = [.blank] ∧ (c.next l).state.mode = .comment := by
  have hskip : ¬ c.Skips l := fun hs => hc hs.2
  have hgap : ¬ c.gap = true := fun hg => hc (h.code_of_gap hg)
  refine ⟨?_, ?_⟩
  · rw [emit, if_neg hskip, if_neg hgap, row, hl]
    rfl
  · rw [Cursor.next, if_neg hskip, hl, State.after, h.mode_eq_comment hc]
    rfl

theorem getLast?_emit {c : Cursor} {l : List Char} (h : ¬ c.Skips l) :
    (c.emit l).getLast? = some (c.row l) := by
  rw [emit_of_not_skips h, List.getLast?_concat]

theorem arrange_concat (c : Cursor) (ls : List (List Char)) (l : List Char) :
    c.arrange (ls ++ [l]) = c.arrange ls ++ (ls.foldl next c).emit l := by
  rw [arrange_append, arrange_cons]
  exact congrArg _ (List.append_nil _)

/-- The rows end with a blank one only where the lines end with a blank one in a comment. -/
theorem getLast?_arrange_eq_blank_iff (ls : List (List Char)) :
    (initial.arrange ls).getLast? = some .blank ↔ OpenEnded ls := by
  induction ls using List.reverseRecOn with
  | nil =>
    constructor
    · rintro ⟨⟩
    · rintro ⟨hmode, -⟩
      cases hmode
  | append_singleton ls l ih =>
    have hsound : (ls.foldl next initial).Sound := sound_initial.foldl_next ls
    rw [arrange_concat, OpenEnded, List.foldl_concat, List.getLast?_concat]
    set c := ls.foldl next initial with hc
    by_cases hs : c.Skips l
    · -- The line is one of code, so the rows before it do not end with a blank one either.
      have hmode : (c.next l).state.mode = .code := by
        rw [Cursor.next, if_pos hs]
        exact hs.2
      rw [emit, if_pos hs, List.append_nil, ih, hmode]
      constructor
      · rintro ⟨hcomment, -⟩
        rw [hs.2] at hcomment
        cases hcomment
      · rintro ⟨hcomment, -⟩
        cases hcomment
    · rw [List.getLast?_append, getLast?_emit hs, Option.some_or, Option.some.injEq, row,
        Row.ofLine_eq_blank_iff]
      refine ⟨fun hl => ⟨?_, l, rfl, hl⟩, ?_⟩
      · exact (hsound.emit_of_blank hl fun hcode => hs ⟨hl, hcode⟩).2
      · rintro ⟨-, m, hm, hl⟩
        cases hm
        exact hl

/-- Before a blank line at the end that stands in a comment there are lines with rows. -/
theorem arrange_of_openEnded {ls : List (List Char)} (h : OpenEnded ls) :
    ∃ ms l, ls = ms ++ [l] ∧ initial.arrange ms ≠ [] ∧
      initial.arrange ls = initial.arrange ms ++ [.blank] := by
  obtain ⟨hmode, l, hlast, hl⟩ := h
  obtain ⟨ms, rfl⟩ := List.getLast?_eq_some_iff.1 hlast
  have hsound : (ms.foldl next initial).Sound := sound_initial.foldl_next ms
  rw [List.foldl_concat] at hmode
  have hcomment : (ms.foldl next initial).state.mode ≠ .code := by
    intro hcode
    rw [Cursor.next, if_pos ⟨hl, hcode⟩, hcode] at hmode
    cases hmode
  refine ⟨ms, l, rfl, fun hnil => hcomment ?_, ?_⟩
  · -- Without rows there is nothing to open a comment.
    have hlast := (sound_initial.arrange_map_chars .two ms).2
    rw [hnil] at hlast
    exact congrArg (fun c => c.state.mode) hlast.symm
  · rw [arrange_concat, (hsound.emit_of_blank hl hcomment).1]

end Cursor

/-! ## Lines of a layout -/

theorem isLine_of_mem_map_chars {rs : List Row} (h : ∀ r ∈ rs, r.Trimmed) (w : IndentWidth) :
    ∀ l ∈ rs.map (Row.chars w), Text.IsLine l := by
  intro l hl
  obtain ⟨r, hr, rfl⟩ := List.mem_map.1 hl
  exact (h r hr).isLine w

/-- Rows of which the last is not blank are the lines of their text. -/
theorem lines_joinLines_chars {rs : List Row} (h : ∀ r ∈ rs, r.Trimmed)
    (hlast : rs.getLast? ≠ some .blank) (w : IndentWidth) :
    Text.lines (Text.joinLines (rs.map (Row.chars w))) = rs.map (Row.chars w) := by
  refine Text.lines_joinLines (isLine_of_mem_map_chars h w) fun hnil => ?_
  rw [List.getLast?_map, Option.map_eq_some_iff] at hnil
  obtain ⟨r, hr, hchars⟩ := hnil
  rw [((h r (List.mem_of_getLast? hr)).chars_eq_nil_iff w).1 hchars] at hr
  exact hlast hr

theorem trimmed_of_mem_rows (cs : List Char) : ∀ r ∈ rows cs, r.Trimmed :=
  Cursor.trimmed_of_mem_arrange (c := .initial) (Text.newline_not_mem_lines cs)

theorem toList_layout (w : IndentWidth) (script : String) :
    (layout w script).toList = Text.joinLines ((rows script.toList).map (Row.chars w)) :=
  String.toList_ofList

variable {script : String}

/-- A layout has the rows that it shows. -/
theorem rows_layout (h : ¬ OpenEnded (Text.lines script.toList)) (w : IndentWidth) :
    rows (layout w script).toList = rows script.toList := by
  have hlast : (rows script.toList).getLast? ≠ some .blank :=
    fun e => h ((Cursor.getLast?_arrange_eq_blank_iff _).1 e)
  rw [toList_layout, rows, lines_joinLines_chars (trimmed_of_mem_rows _) hlast]
  exact (Cursor.sound_initial.arrange_map_chars w _).1

/-- A blank row at the end is not among the rows of a layout. -/
theorem rows_layout_of_openEnded (h : OpenEnded (Text.lines script.toList)) (w : IndentWidth) :
    rows (layout w script).toList ≠ [] ∧
      rows script.toList = rows (layout w script).toList ++ [.blank] := by
  obtain ⟨ms, l, hlines, hne, hrows⟩ := Cursor.arrange_of_openEnded h
  have hrows : rows script.toList = Cursor.initial.arrange ms ++ [.blank] := hrows
  have htrimmed := trimmed_of_mem_rows script.toList
  rw [hrows, List.forall_mem_append] at htrimmed
  have hagain : rows (layout w script).toList = Cursor.initial.arrange ms := by
    rw [toList_layout, hrows, List.map_append, List.map_singleton, Row.chars_blank,
      Text.joinLines_append (by simpa using hne) (List.cons_ne_nil _ _), rows]
    have hblank : Text.joinLines [[]] = [] := rfl
    have hlines := Text.lines_joinLines_append_newline (by simpa using hne)
      (isLine_of_mem_map_chars htrimmed.1 w) []
    rw [hblank, hlines, Text.lines, List.append_nil]
    exact (Cursor.sound_initial.arrange_map_chars w ms).1
  rw [hagain]
  exact ⟨hne, hrows⟩

/-! ## Laying out twice -/

/-- A layout is laid out again as the script itself would be. -/
theorem layout_layout (h : ¬ OpenEnded (Text.lines script.toList)) (v w : IndentWidth) :
    layout v (layout w script) = layout v script := by
  rw [layout, rows_layout h, layout]

/-- Laid out again, a script that ends with a blank line in a comment loses a line feed. -/
theorem layout_layout_of_openEnded (h : OpenEnded (Text.lines script.toList)) (v w : IndentWidth) :
    layout v script = layout v (layout w script) ++ "\n" := by
  obtain ⟨hne, hrows⟩ := rows_layout_of_openEnded h w
  apply String.toList_inj.1
  rw [String.toList_append, toList_layout, toList_layout, hrows, List.map_append,
    List.map_singleton, Text.joinLines_append (by simpa using hne) (List.cons_ne_nil _ _)]
  rfl

/-- A layout is final, unless its script ends with a blank line in a block comment that is not
closed.  Such a layout loses the line feed at its end when it is laid out again. -/
theorem layout_layout_eq_iff (w : IndentWidth) (script : String) :
    (layout w (layout w script) = layout w script ↔ ¬ OpenEnded (Text.lines script.toList)) ∧
      (OpenEnded (Text.lines script.toList) →
        layout w script = layout w (layout w script) ++ "\n") := by
  refine ⟨⟨fun heq h => ?_, fun h => layout_layout h w w⟩,
    fun h => layout_layout_of_openEnded h w w⟩
  have hlength := congrArg String.length (layout_layout_of_openEnded h w w)
  rw [heq, String.length_append] at hlength
  have hfeed : "\n".length = 1 := rfl
  omega

/-- The blank line in the comment is kept at first, and lost when its layout is laid out again. -/
theorem layout_open_comment_ne :
    layout .four (layout .four "/*\n\n") ≠ layout .four "/*\n\n" := by
  decide

end SiteScript.Layout
