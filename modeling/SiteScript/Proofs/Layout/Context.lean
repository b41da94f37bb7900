import SiteScript.Proofs.Layout.Shown

/-!
# Fragments in their context

A fragment is self-contained when it closes all brackets that it opens, and no others.  Inside a script
such a fragment is laid out as it is on its own, only further to the right, and what follows it is laid
out as if it were not there (`shown_in_context`).  A run over the fragment inside open brackets, the
frame, keeps step with a run with nothing open: its stack is that of the other run on top of the frame,
with all levels raised by the level inside the frame (`Cursor.run_inside`).
-/

namespace SiteScript.Layout

/-! ## Self-contained fragments -/

/-- Whether each closing bracket in the code of a line closes the innermost open one. -/
def closesAll (level : Nat) : Mode → List Opened → List Char → Bool
  | _, _, [] => true
  | .code, _, '/' :: '/' :: _ => true
  | .code, stack, '/' :: '*' :: cs => closesAll level .comment stack cs
  | .code, stack, c :: cs =>
    (!isCloser c || closesTop c stack) && closesAll level (codeMode c) (codeStack level c stack) cs
  | .string quote, stack, c :: cs => closesAll level (stringMode quote c) stack cs
  | .escaped quote, stack, _ :: cs => closesAll level (.string quote) stack cs
  | .comment, stack, c :: cs => closesAll level (commentMode c) stack cs
  | .commentStar, stack, c :: cs => closesAll level (starMode c) stack cs

/-- Whether each closing bracket in the code of some lines closes the innermost open one. -/
def State.closesAll (s : State) : List (List Char) → Bool
  | [] => true
  | l :: ls =>
    Layout.closesAll (lineLevel s (Text.trim l)) s.mode s.stack (Text.trim l) &&
      (s.after (Text.trim l)).closesAll ls

/-- A text that leaves nothing open, and in which each closing bracket closes the innermost open one. -/
structure SelfContained (fragment : String) : Prop where
  finish_eq : finish fragment = .start
  closes : State.start.closesAll (Text.lines fragment.toList) = true

theorem codeLevel_of_not_closer {c : Char} (h : isCloser c = false) (stack : List Opened)
    (line : List Char) : codeLevel stack (c :: line) = bodyLevel stack := by
  have hc : ¬ isCloser c = true := by rw [h]; exact Bool.false_ne_true
  cases stack <;> exact if_neg hc

theorem codeLevel_of_closes {c : Char} (h : isCloser c = true) {o : Opened} {stack : List Opened}
    (htop : closesTop c (o :: stack) = true) (line : List Char) :
    codeLevel (o :: stack) (c :: line) = o.level := by
  rw [codeLevel, if_pos h, if_pos htop]

theorem closesTop_of_closesAll {c : Char} (hc : isCloser c = true) {level : Nat} {stack : List Opened}
    {cs : List Char} (h : closesAll level .code stack (c :: cs) = true) : closesTop c stack = true := by
  have hslash : c ≠ '/' := by
    rintro rfl
    cases hc
  rw [closesAll, Bool.and_eq_true, hc] at h
  · exact h.1
  · exact fun _ e => absurd e hslash
  · exact fun _ e => absurd e hslash

/-! ## Inside a frame -/

/-- The row at a deeper level. -/
def Row.deepen (k : Nat) : Row → Row
  | blank => blank
  | line level content => line (level + k) content

theorem Row.ofLine_add (level k : Nat) (l : List Char) :
    ofLine (level + k) l = (ofLine level l).deepen k := by
  cases l <;> rfl

/-- A line with spaces in front of it; an empty line has none. -/
def shift (n : Nat) (l : List Char) : List Char :=
  if l = [] then [] else List.replicate n ' ' ++ l

theorem Row.Trimmed.chars_deepen {r : Row} (h : r.Trimmed) (k : Nat) (w : IndentWidth) :
    (r.deepen k).chars w = shift (k * w.spaces) (r.chars w) := by
  cases r with
  | blank => rfl
  | line level content =>
    have hne : (line level content).chars w ≠ [] := List.append_ne_nil_of_right_ne_nil _ h.1
    rw [shift, if_neg hne, deepen, chars, chars, ← List.append_assoc, List.replicate_append_replicate,
      ← Nat.add_mul, Nat.add_comm]

section

variable (frame : List Opened)

/-- Brackets that are opened inside a frame. -/
def inside (stack : List Opened) : List Opened :=
  stack.map (fun o => ⟨o.bracket, o.level + bodyLevel frame⟩) ++ frame

theorem bodyLevel_inside (stack : List Opened) :
    bodyLevel (inside frame stack) = bodyLevel stack + bodyLevel frame := by
  cases stack with
  | nil => exact (Nat.zero_add _).symm
  | cons o stack => exact Nat.add_right_comm o.level (bodyLevel frame) 1

variable {c : Char} {stack : List Opened}

theorem closesTop_inside (h : closesTop c stack = true) : closesTop c (inside frame stack) = true := by
  cases stack with
  | nil => cases h
  | cons o stack => exact h

theorem codeStack_inside (h : (!isCloser c || closesTop c stack) = true) (level : Nat) :
    codeStack (level + bodyLevel frame) c (inside frame stack) =
      inside frame (codeStack level c stack) := by
  rw [codeStack, codeStack]
  cases hc : isCloser c with
  | false =>
    simp only [Bool.false_and, Bool.false_eq_true, if_false]
    split_ifs <;> rfl
  | true =>
    have htop : closesTop c stack = true := by simpa [hc] using h
    rw [htop, closesTop_inside frame htop]
    cases stack with
    | nil => cases htop
    | cons o stack => split_ifs <;> rfl

/-- A line is scanned in a frame as it is without one, as long as it closes nothing of the frame. -/
theorem scan_inside {level : Nat} {mode : Mode} {cs : List Char}
    (h : closesAll level mode stack cs = true) :
    scan (level + bodyLevel frame) mode (inside frame stack) cs =
      ⟨(scan level mode stack cs).mode, inside frame (scan level mode stack cs).stack⟩ := by
  fun_induction scan level mode stack cs with
  | case1 mode stack | case2 stack cs => rw [scan]
  | case3 stack cs ih =>
    rw [closesAll] at h
    rw [scan, ih h]
  | case4 stack c cs hslash hstar ih =>
    rw [closesAll, Bool.and_eq_true] at h
    rw [scan, codeStack_inside frame h.1, ih h.2]
    all_goals assumption
  | case5 stack quote c cs ih | case6 stack quote c cs ih =>
    rw [closesAll] at h
    rw [scan, ih h]
  | case7 stack c cs ih | case8 stack c cs ih =>
    rw [closesAll] at h
    rw [scan, ih h]

/-- A line of a fragment stands as much deeper inside a frame as the frame goes in. -/
theorem lineLevel_inside {mode : Mode} {level : Nat} {line : List Char}
    (h : closesAll level mode stack line = true) :
    lineLevel ⟨mode, inside frame stack⟩ line = lineLevel ⟨mode, stack⟩ line + bodyLevel frame := by
  have hbody := bodyLevel_inside frame stack
  rw [lineLevel, lineLevel]
  split_ifs with hmode
  · subst hmode
    cases line with
    | nil => exact hbody
    | cons c line =>
      cases hc : isCloser c with
      | false => rw [codeLevel_of_not_closer hc, codeLevel_of_not_closer hc, hbody]
      | true =>
        have htop := closesTop_of_closesAll hc h
        cases stack with
        | nil => cases htop
        | cons o stack =>
          rw [codeLevel_of_closes hc htop]
          exact codeLevel_of_closes hc (closesTop_inside frame htop) line
  · exact hbody

/-- What is open inside a frame. -/
def State.inside (s : State) : State :=
  ⟨s.mode, Layout.inside frame s.stack⟩

theorem State.after_inside {s : State} {line : List Char}
    (h : Layout.closesAll (lineLevel s line) s.mode s.stack line = true) :
    (s.inside frame).after line = (s.after line).inside frame := by
  rw [after, inside, lineLevel_inside frame h, scan_inside frame h]
  rfl

end

namespace Cursor

section

variable (frame : List Opened)

/-- The cursor inside a frame. -/
def inside (c : Cursor) : Cursor :=
  ⟨c.started, c.gap, c.state.inside frame⟩

theorem skips_inside_iff (c : Cursor) (l : List Char) : (c.inside frame).Skips l ↔ c.Skips l :=
  Iff.rfl

variable {c : Cursor} {l : List Char}
  (h : Layout.closesAll (lineLevel c.state (Text.trim l)) c.state.mode c.state.stack
    (Text.trim l) = true)

include h

theorem emit_inside :
    (c.inside frame).emit l = (c.emit l).map (Row.deepen (bodyLevel frame)) := by
  have hrow : (c.inside frame).row l = (c.row l).deepen (bodyLevel frame) := by
    rw [row, row, ← Row.ofLine_add, ← lineLevel_inside frame h]
    rfl
  have hskips := skips_inside_iff frame c l
  by_cases hs : c.Skips l
  · rw [emit, emit, if_pos hs, if_pos (hskips.2 hs)]
    rfl
  · have hdue : (c.inside frame).due = c.due := rfl
    have hblank : c.due.map (Row.deepen (bodyLevel frame)) = c.due := by
      rw [due]
      split_ifs <;> rfl
    rw [emit_of_not_skips hs, emit_of_not_skips (hskips.not.2 hs), hrow, hdue, List.map_append, hblank]
    rfl

theorem next_inside : (c.inside frame).next l = (c.next l).inside frame := by
  have hskips := skips_inside_iff frame c l
  by_cases hs : c.Skips l
  · rw [next, next, if_pos hs, if_pos (hskips.2 hs)]
    rfl
  · rw [next, next, if_neg hs, if_neg (hskips.not.2 hs), inside, State.after_inside frame h]
    rfl

end

/-- A run over lines that close nothing of the frame keeps step with the run without a frame. -/
theorem run_inside (frame : List Opened) {c : Cursor} {ls : List (List Char)}
    (h : c.state.closesAll ls = true) :
    (c.inside frame).arrange ls = (c.arrange ls).map (Row.deepen (bodyLevel frame)) ∧
      ls.foldl next (c.inside frame) = (ls.foldl next c).inside frame := by
  induction ls generalizing c with
  | nil => exact ⟨rfl, rfl⟩
  | cons l ls ih =>
    rw [State.closesAll, Bool.and_eq_true, ← state_next] at h
    obtain ⟨hrows, hlast⟩ := ih h.2
    rw [arrange_cons, arrange_cons, List.foldl_cons, List.foldl_cons, emit_inside frame h.1,
      next_inside frame h.1, hrows, hlast, List.map_append]
    exact ⟨rfl, rfl⟩

/-! ## Around a fragment -/

/-- Lines that are equal but for blanks at their ends are arranged alike. -/
theorem arrange_congr (c : Cursor) {as bs : List (List Char)} (h : as.map Text.trim = bs.map Text.trim) :
    c.arrange as = c.arrange bs ∧ as.foldl next c = bs.foldl next c := by
  induction as generalizing c bs with
  | nil =>
    rw [List.map_nil] at h
    rw [List.map_eq_nil_iff.1 h.symm]
    exact ⟨rfl, rfl⟩
  | cons a as ih =>
    obtain ⟨b, bs, rfl, hb, hbs⟩ := List.map_eq_cons_iff.1 h.symm
    have hemit : c.emit a = c.emit b := by simp only [emit, Skips, row, hb]
    have hnext : c.next a = c.next b := by simp only [next, Skips, hb]
    obtain ⟨hrows, hlast⟩ := ih (c.next b) hbs.symm
    rw [arrange_cons, arrange_cons, List.foldl_cons, List.foldl_cons, hemit, hnext, hrows, hlast]
    exact ⟨rfl, rfl⟩

/-- A line feed behind code adds no row and leaves open what was open. -/
theorem arrange_lines_feed {c : Cursor} {cs : List Char}
    (h : (c.state.run (Text.lines cs)).mode = .code) :
    c.arrange (Text.lines (cs ++ ['\n'])) = c.arrange (Text.lines cs) ∧
      ((Text.lines (cs ++ ['\n'])).foldl next c).state = c.state.run (Text.lines cs) := by
  obtain ⟨gap, hblank, hlines⟩ := Text.exists_lines_feed cs
  obtain ⟨hrows, hlast⟩ := c.arrange_congr hlines
  rw [← state_foldl_next] at h ⊢
  obtain ⟨hgap, hend⟩ := arrange_blank_of_code hblank h
  rw [hrows, hlast, arrange_append, hgap, List.append_nil, List.foldl_append, hend]
  refine ⟨rfl, ?_⟩
  split_ifs <;> rfl

/-- Some texts leave a cursor from which the texts behind them are arranged. -/
theorem exists_arrange_joinLines {c : Cursor} {ss : List (List Char)}
    (hcode : (c.state.run (Text.lines (Text.joinLines ss))).mode = .code) :
    ∃ d : Cursor, d.state = c.state.run (Text.lines (Text.joinLines ss)) ∧ ∀ ts,
      c.arrange (Text.lines (Text.joinLines (ss ++ ts))) =
        c.arrange (Text.lines (Text.joinLines ss)) ++ d.arrange (Text.lines (Text.joinLines ts)) := by
  rcases eq_or_ne ss [] with rfl | hss
  · exact ⟨c, rfl, fun ts => rfl⟩
  · obtain ⟨hrows, hend⟩ := arrange_lines_feed hcode
    refine ⟨_, hend, fun ts => ?_⟩
    rcases eq_or_ne ts [] with rfl | hts
    · rw [List.append_nil]
      exact (List.append_nil _).symm
    · rw [Text.joinLines_append hss hts, Text.lines_append_feed _ (Text.joinLines ts), arrange_append,
        hrows]

theorem due_cases (c : Cursor) : c.due = [] ∨ c.due = [.blank] := by
  rw [due]
  split_ifs
  · exact .inr rfl
  · exact .inl rfl

/-- What is open before some lines decides on their rows, up to a blank row in front. -/
theorem arrange_of_state_eq {c d : Cursor} (h : c.state = d.state) (ls : List (List Char)) :
    ∃ seam seam' tail, (seam = [] ∨ seam = [.blank]) ∧ (seam' = [] ∨ seam' = [.blank]) ∧
      c.arrange ls = seam ++ tail ∧ d.arrange ls = seam' ++ tail := by
  induction ls generalizing c d with
  | nil => exact ⟨[], [], [], .inl rfl, .inl rfl, rfl, rfl⟩
  | cons l ls ih =>
    have hskips : d.Skips l ↔ c.Skips l := by rw [Skips, Skips, h]
    by_cases hs : c.Skips l
    · rw [arrange_cons, arrange_cons, emit, emit, if_pos hs, if_pos (hskips.2 hs)]
      exact ih (by rw [state_next, state_next, h])
    · have hrow : d.row l = c.row l := by rw [row, row, h]
      have hnext : d.next l = c.next l := by rw [next, next, if_neg hs, if_neg (hskips.not.2 hs), h]
      rw [arrange_cons, arrange_cons, emit_of_not_skips hs, emit_of_not_skips (hskips.not.2 hs), hrow,
        hnext, List.append_assoc, List.append_assoc]
      exact ⟨_, _, _, c.due_cases, d.due_cases, rfl, rfl⟩

/-- Behind code the lines of a fragment have the rows that they have on their own, only deeper, and
leave open what was open before them. -/
theorem arrange_fragment {c : Cursor} (hcode : c.state.mode = .code) {ls : List (List Char)}
    (hhead : ∃ l ∈ ls.head?, Text.trim l ≠ []) (hclosed : State.start.run ls = .start)
    (hcloses : State.start.closesAll ls = true) :
    c.arrange ls = c.due ++ (initial.arrange ls).map (Row.deepen (bodyLevel c.state.stack)) ∧
      c.state.run ls = c.state := by
  have hstart : State.start.inside c.state.stack = c.state := by
    obtain ⟨started, gap, mode, stack⟩ := c
    obtain rfl : mode = .code := hcode
    rfl
  have hready : ready.inside c.state.stack = ⟨true, false, c.state⟩ :=
    congrArg (Cursor.mk true false) hstart
  obtain ⟨l, hl, hne⟩ := hhead
  obtain ⟨ls, rfl⟩ := List.head?_eq_some_iff.1 hl
  obtain ⟨hrows, hlast⟩ := run_inside c.state.stack (c := ready) hcloses
  rw [hready] at hrows hlast
  refine ⟨?_, ?_⟩
  · have hinitial : ready.arrange (l :: ls) = initial.arrange (l :: ls) := by
      rw [arrange_cons_of_solid _ hne, arrange_cons_of_solid _ hne]
      rfl
    rw [← hinitial, ← hrows, arrange_cons_of_solid _ hne, arrange_cons_of_solid _ hne]
    rfl
  · have hend := congrArg Cursor.state hlast
    rw [state_foldl_next, inside, state_foldl_next] at hend
    exact hend.trans ((congrArg (State.inside c.state.stack) hclosed).trans hstart)

/-- The rows of a fragment behind code, and of what stands behind the fragment. -/
theorem arrange_fragment_joinLines {c : Cursor} (hcode : c.state.mode = .code) {fragment : List Char}
    (hhead : ∃ l ∈ (Text.lines fragment).head?, Text.trim l ≠ [])
    (hclosed : State.start.run (Text.lines fragment) = .start)
    (hcloses : State.start.closesAll (Text.lines fragment) = true) (ts : List (List Char)) :
    ∃ seam seam' tail, (seam = [] ∨ seam = [.blank]) ∧ (seam' = [] ∨ seam' = [.blank]) ∧
      c.arrange (Text.lines (Text.joinLines (fragment :: ts))) =
        c.due ++ (rows fragment).map (Row.deepen (bodyLevel c.state.stack)) ++ seam ++ tail ∧
      c.arrange (Text.lines (Text.joinLines ts)) = seam' ++ tail := by
  have hsingle : Text.joinLines [fragment] = fragment := List.intercalate_singleton
  obtain ⟨hfragment, hrun⟩ := arrange_fragment hcode hhead hclosed hcloses
  have hbehind : (c.state.run (Text.lines (Text.joinLines [fragment]))).mode = .code := by
    rwa [hsingle, hrun]
  obtain ⟨d, hstate, hrows⟩ := exists_arrange_joinLines hbehind
  rw [hsingle, hrun] at hstate
  obtain ⟨seam, seam', tail, hseam, hseam', hwith, hwithout⟩ :=
    arrange_of_state_eq hstate (Text.lines (Text.joinLines ts))
  have hrows := hrows ts
  rw [hsingle, hfragment, hwith, ← List.append_assoc] at hrows
  exact ⟨seam, seam', tail, hseam, hseam', hrows, hwithout⟩

end Cursor

/-! ## Fragments in a script -/

/-- No line, or one empty line. -/
def AtMostBlank (ls : List (List Char)) : Prop :=
  ls = [] ∨ ls = [[]]

theorem atMostBlank_chars {rs : List Row} (h : rs = [] ∨ rs = [.blank]) (w : IndentWidth) :
    AtMostBlank (rs.map (Row.chars w)) := by
  obtain rfl | rfl := h
  · exact .inl rfl
  · exact .inr rfl

theorem chars_deepen {rs : List Row} (h : ∀ r ∈ rs, r.Trimmed) (k : Nat) (w : IndentWidth) :
    (rs.map (Row.deepen k)).map (Row.chars w) = (rs.map (Row.chars w)).map (shift (k * w.spaces)) := by
  rw [List.map_map, List.map_map]
  exact List.map_congr_left fun r hr => (h r hr).chars_deepen k w

theorem toList_intercalate_feed (ss : List String) :
    ("\n".intercalate ss).toList = Text.joinLines (ss.map String.toList) :=
  String.toList_intercalate

/-- The rows of a fragment in a script, of what stands before it and of what stands behind it. -/
theorem rows_in_context {before : List String} {fragment : String} (hself : SelfContained fragment)
    (hhead : ∃ l ∈ (Text.lines fragment.toList).head?, Text.trim l ≠ [])
    (hcode : (finish ("\n".intercalate before)).mode = .code) (after : List String) :
    ∃ gap seam seam' tail, (gap = [] ∨ gap = [.blank]) ∧ (seam = [] ∨ seam = [.blank]) ∧
      (seam' = [] ∨ seam' = [.blank]) ∧
      rows ("\n".intercalate (before ++ fragment :: after)).toList =
        rows ("\n".intercalate before).toList ++ gap ++ (rows fragment.toList).map
          (Row.deepen (bodyLevel (finish ("\n".intercalate before)).stack)) ++ seam ++ tail ∧
      rows ("\n".intercalate (before ++ after)).toList =
        rows ("\n".intercalate before).toList ++ seam' ++ tail ∧
      tail.filterMap Row.content? =
        (Text.solid (Text.lines ("\n".intercalate after).toList)).map Text.trim := by
  have hfinish : finish ("\n".intercalate before) =
      Cursor.initial.state.run (Text.lines (Text.joinLines (before.map String.toList))) := by
    rw [finish, toList_intercalate_feed]
    rfl
  rw [hfinish] at hcode ⊢
  simp only [toList_intercalate_feed, List.map_append, List.map_cons]
  obtain ⟨c, hstate, hrows⟩ := Cursor.exists_arrange_joinLines hcode
  rw [← hstate] at hcode ⊢
  obtain ⟨seam, seam', tail, hseam, hseam', hwith, hwithout⟩ := Cursor.arrange_fragment_joinLines
    hcode hhead hself.finish_eq hself.closes (after.map String.toList)
  refine ⟨c.due, seam, seam', tail, c.due_cases, hseam, hseam', ?_, ?_, ?_⟩
  · refine (hrows _).trans ?_
    rw [hwith]
    simp only [List.append_assoc]
    rfl
  · refine (hrows _).trans ?_
    rw [hwithout, List.append_assoc]
    rfl
  · have hcontents := c.contents_arrange (Text.lines (Text.joinLines (after.map String.toList)))
    have hblank : seam'.filterMap Row.content? = [] := by
      obtain rfl | rfl := hseam' <;> rfl
    rwa [hwithout, List.filterMap_append, hblank, List.nil_append] at hcontents

/-- A self-contained fragment in a script, behind texts that leave it in code.  The lines of the
fragment are those of its own layout, shifted to the right by the level inside the brackets that are
open before it.  The lines of the texts behind it are those which they are without the fragment, and so
are the lines before it; an empty line can stand before and behind the fragment, where the script has
blank lines. -/
theorem shown_in_context {before : List String} {fragment : String} (hself : SelfContained fragment)
    (hhead : ∃ l ∈ (Text.lines fragment.toList).head?, Text.trim l ≠ [])
    (hcode : (finish ("\n".intercalate before)).mode = .code) (after : List String)
    (w : IndentWidth) :
    ∃ gap seam seam' tail, AtMostBlank gap ∧ AtMostBlank seam ∧ AtMostBlank seam' ∧
      shown w ("\n".intercalate (before ++ fragment :: after)) =
        shown w ("\n".intercalate before) ++ gap ++ (shown w fragment).map
          (shift (bodyLevel (finish ("\n".intercalate before)).stack * w.spaces)) ++ seam ++ tail ∧
      shown w ("\n".intercalate (before ++ after)) =
        shown w ("\n".intercalate before) ++ seam' ++ tail ∧
      (Text.solid tail).map Text.unspaced =
        (Text.solid (Text.lines ("\n".intercalate after).toList)).map Text.trim := by
  obtain ⟨gap, seam, seam', tail, hgap, hseam, hseam', hwith, hwithout, hcontents⟩ :=
    rows_in_context hself hhead hcode after
  have htrimmed : ∀ r ∈ tail, r.Trimmed := fun r hr =>
    trimmed_of_mem_rows _ r (hwithout ▸ List.mem_append_right _ hr)
  refine ⟨_, _, _, tail.map (Row.chars w), atMostBlank_chars hgap w, atMostBlank_chars hseam w,
    atMostBlank_chars hseam' w, ?_, ?_, ?_⟩
  · simp only [shown_eq, hwith, List.map_append, chars_deepen (trimmed_of_mem_rows _)]
  · simp only [shown_eq, hwithout, List.map_append]
  · rw [unspaced_solid_chars htrimmed, hcontents]

theorem shown_in_context_branch :
    let before := ["casper.then(function() \x7b", "  /* ) */"]
    let fragment := "if (a) \x7b\nb();\n\x7d"
    let after := ["", "c();", "\x7d);"]
    SelfContained fragment ∧ (∃ l ∈ (Text.lines fragment.toList).head?, Text.trim l ≠ []) ∧
      (finish ("\n".intercalate before)).mode = .code ∧
      ∃ gap seam seam' tail, AtMostBlank gap ∧ AtMostBlank seam ∧ AtMostBlank seam' ∧
        shown .two ("\n".intercalate (before ++ fragment :: after)) =
          shown .two ("\n".intercalate before) ++ gap ++ (shown .two fragment).map
            (shift 2) ++ seam ++ tail ∧
        shown .two ("\n".intercalate (before ++ after)) =
          shown .two ("\n".intercalate before) ++ seam' ++ tail ∧
        (Text.solid tail).map Text.unspaced =
          (Text.solid (Text.lines ("\n".intercalate after).toList)).map Text.trim := by
  have hself : SelfContained "if (a) \x7b\nb();\n\x7d" := ⟨by decide, by decide⟩
  have hhead : ∃ l ∈ (Text.lines "if (a) \x7b\nb();\n\x7d".toList).head?, Text.trim l ≠ [] :=
    ⟨"if (a) \x7b".toList, by decide, by decide⟩
  have hcode :
      (finish ("\n".intercalate ["casper.then(function() \x7b", "  /* ) */"])).mode = .code := by
    decide
  exact ⟨hself, hhead, hcode, shown_in_context hself hhead hcode ["", "c();", "\x7d);"] .two⟩

end SiteScript.Layout
