import SiteScript.Proofs.Layout.Shown

/-!
# Levels of lines

However many brackets a line opens or closes, the next line of the layout is at most one level deeper
(`levels_step`).  What carries this is an invariant of the open brackets: their levels do not decrease
from the outermost one to the innermost one (`Rising`), and behind a line none of them exceeds the
level of that line (`Under`).  So the level inside the innermost bracket is at most one more than that
of the line, and the next line stands there or one level out.
-/

namespace SiteScript.Layout

/-- The levels of the open brackets do not decrease from the outermost one to the innermost one, which
comes first. -/
def Rising (stack : List Opened) : Prop :=
  stack.Pairwise fun inner outer => outer.level ≤ inner.level

/-- The levels of the open brackets are rising and do not exceed a bound. -/
structure Under (level : Nat) (stack : List Opened) : Prop where
  rising : Rising stack
  le : ∀ o ∈ stack, o.level ≤ level

/-! ## Scanning a line -/

section

variable {level : Nat} {stack : List Opened}

theorem Under.codeStack (h : Under level stack) (c : Char) : Under level (codeStack level c stack) := by
  rw [Layout.codeStack]
  split_ifs
  · exact ⟨List.pairwise_cons.2 ⟨h.le, h.rising⟩, List.forall_mem_cons.2 ⟨le_rfl, h.le⟩⟩
  · exact ⟨h.rising.tail, fun o ho => h.le o (List.mem_of_mem_tail ho)⟩
  · exact h

/-- The brackets of a line are recorded with its level, whatever it opens and closes. -/
theorem Under.scan (h : Under level stack) (mode : Mode) (cs : List Char) :
    Under level (scan level mode stack cs).stack :=
  scan_keeps (fun c _ h => h.codeStack c) h mode cs

theorem Under.bodyLevel_le (h : Under level stack) : bodyLevel stack ≤ level + 1 := by
  cases stack with
  | nil => exact Nat.zero_le _
  | cons o stack => exact Nat.succ_le_succ (h.le o List.mem_cons_self)

theorem Rising.lt_bodyLevel (h : Rising stack) : ∀ o ∈ stack, o.level < bodyLevel stack := by
  cases stack with
  | nil => exact List.forall_mem_nil _
  | cons o stack =>
    refine List.forall_mem_cons.2 ⟨Nat.lt_succ_self _, fun p hp => ?_⟩
    exact Nat.lt_succ_of_le (List.rel_of_pairwise_cons h hp)

end

/-! ## The level of a line -/

/-- A line stands inside the innermost open bracket or one level out. -/
theorem lineLevel_cases (s : State) (line : List Char) :
    lineLevel s line = bodyLevel s.stack ∨ lineLevel s line + 1 = bodyLevel s.stack := by
  obtain ⟨mode, stack⟩ := s
  rw [lineLevel]
  split_ifs with hmode
  · cases line with
    | nil => exact .inl rfl
    | cons c line =>
      cases stack with
      | nil => exact .inl (Cursor.codeLevel_nil (c :: line))
      | cons o stack =>
        rw [codeLevel]
        split_ifs
        · exact .inr rfl
        · exact .inr (Nat.sub_add_cancel (Nat.succ_pos o.level))
        · exact .inl rfl
  · exact .inl rfl

/-- What is open after a part of a line. -/
def State.partway (s : State) (line part : List Char) : State :=
  scan (lineLevel s line) s.mode s.stack part

/-- While a line is read, no bracket has a greater level than the line. -/
theorem Rising.partway {s : State} (h : Rising s.stack) (line part : List Char) :
    Under (lineLevel s line) (s.partway line part).stack := by
  have hunder : Under (lineLevel s line) s.stack := by
    refine ⟨h, fun o ho => ?_⟩
    have hbody := h.lt_bodyLevel o ho
    have hline := lineLevel_cases s line
    omega
  exact hunder.scan s.mode part

theorem Rising.after {s : State} (h : Rising s.stack) (line : List Char) :
    Under (lineLevel s line) (s.after line).stack :=
  h.partway line line

theorem Rising.run {s : State} (h : Rising s.stack) (ls : List (List Char)) :
    Rising (s.run ls).stack := by
  induction ls generalizing s with
  | nil => exact h
  | cons l ls ih => exact ih (h.after (Text.trim l)).rising

/-! ## The levels of a layout -/

namespace Cursor

/-- Behind a line of some level, the lines go in by at most one level each. -/
theorem isChain_levels_arrange {c : Cursor} {level : Nat} (h : Under level c.state.stack)
    (ls : List (List Char)) :
    (level :: (c.arrange ls).filterMap Row.level?).IsChain fun before after => after ≤ before + 1 := by
  induction ls generalizing c level with
  | nil => exact .singleton _
  | cons l ls ih =>
    rw [arrange_cons, List.filterMap_append, filterMap_emit rfl, level?_row]
    by_cases hl : Text.trim l = []
    · have hstack : (c.next l).state.stack = c.state.stack := by
        rw [state_next, hl, State.stack_after_nil]
      rw [if_pos hl]
      exact ih (hstack ▸ h)
    · have hbody := h.bodyLevel_le
      have hline := lineLevel_cases c.state (Text.trim l)
      have hafter := h.rising.after (Text.trim l)
      rw [← state_next] at hafter
      rw [if_neg hl]
      exact List.isChain_cons_cons.2 ⟨by omega, ih hafter⟩

/-- As long as nothing is open, a line is not indented. -/
theorem head_levels_arrange {c : Cursor} (h : c.state.stack = []) (ls : List (List Char)) :
    ∀ level ∈ ((c.arrange ls).filterMap Row.level?).head?, level = 0 := by
  induction ls generalizing c with
  | nil => exact nofun
  | cons l ls ih =>
    rw [arrange_cons, List.filterMap_append, filterMap_emit rfl, level?_row]
    by_cases hl : Text.trim l = []
    · rw [if_pos hl]
      apply ih
      rw [state_next, hl, State.stack_after_nil, h]
    · have hline := lineLevel_cases c.state (Text.trim l)
      have hbody : bodyLevel c.state.stack = 0 := by rw [h]; rfl
      rw [if_neg hl]
      rintro level ⟨⟩
      omega

theorem getElem?_levels_arrange (c : Cursor) (before : List (List Char)) {line : List Char}
    (h : Text.trim line ≠ []) (after : List (List Char)) :
    ((c.arrange (before ++ line :: after)).filterMap Row.level?)[(Text.solid before).length]? =
      some (lineLevel (c.state.run before) (Text.trim line)) := by
  have hlength := c.length_levels_arrange before
  rw [arrange_append_cons c before h, List.filterMap_append, List.filterMap_append,
    filterMap_due rfl, List.append_nil, List.getElem?_append_right hlength.le, hlength, Nat.sub_self,
    List.filterMap_cons, level?_row, if_neg h, state_foldl_next]
  rfl

end Cursor

/-- The levels that the lines of a layout show, blank lines apart. -/
def depths (w : IndentWidth) (script : String) : List Nat :=
  ((Text.solid (shown w script)).map Text.spaces).map (· / w.spaces)

theorem depths_eq_levels (w : IndentWidth) (script : String) : depths w script = levels script := by
  have hspaces : 0 < w.spaces := by cases w <;> decide
  rw [depths, shown_eq, spaces_solid_chars (trimmed_of_mem_rows _), List.map_map]
  refine (List.map_congr_left fun level _ => ?_).trans (List.map_id _)
  exact Nat.mul_div_cancel level hspaces

/-- The first line of a layout is not indented, and each further line is at most one level deeper than
the line before it, blank lines apart.  At every point of the script the levels of the open brackets
are rising, and behind a line none of them exceeds the level that the layout shows for it. -/
theorem levels_step (w : IndentWidth) (script : String) :
    (∀ level ∈ (depths w script).head?, level = 0) ∧
      (depths w script).IsChain (fun before after => after ≤ before + 1) ∧
      ∀ before line after, Text.lines script.toList = before ++ line :: after →
        (∀ part, part <+: Text.trim line →
          Rising ((State.start.run before).partway (Text.trim line) part).stack) ∧
        (Text.trim line ≠ [] → ∃ level,
          (depths w script)[(Text.solid before).length]? = some level ∧
            ∀ o ∈ (State.start.run (before ++ [line])).stack, o.level ≤ level) := by
  have hstart : Under 0 State.start.stack := ⟨List.Pairwise.nil, List.forall_mem_nil _⟩
  rw [depths_eq_levels]
  refine ⟨Cursor.head_levels_arrange (c := .initial) rfl _, ?_, fun before line after hlines => ?_⟩
  · exact (Cursor.isChain_levels_arrange (c := .initial) hstart _).of_cons
  · have hrising : Rising (State.start.run before).stack := hstart.rising.run before
    refine ⟨fun part _ => (hrising.partway _ part).rising, fun hline =>
      ⟨lineLevel (State.start.run before) (Text.trim line), ?_, ?_⟩⟩
    · rw [levels, rows, hlines]
      exact Cursor.getElem?_levels_arrange .initial before hline after
    · rw [State.run_append]
      exact (hrising.after (Text.trim line)).le

end SiteScript.Layout
