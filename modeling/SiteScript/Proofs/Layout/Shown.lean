import SiteScript.Proofs.Layout.Relayout

/-!
# What a layout shows

`shown` are the lines of a layout as they stand between its line feeds: the indented rows of the
script (`shown_eq`).  From the lines that are not blank one can read the rows again, the level of a
row from the spaces (`spaces_solid_chars`) and its content from what follows them
(`unspaced_solid_chars`).  `finish` is what a script leaves open; it is the state of the cursor behind
its lines (`Cursor.state_foldl_next`).
-/

namespace SiteScript

namespace Text

/-- What stands between the line feeds of a text; an empty text has no such pieces. -/
def pieces (cs : List Char) : List (List Char) :=
  if cs = [] then [] else cs.splitOn '\n'

/-- The lines that are not blank. -/
def solid (ls : List (List Char)) : List (List Char) :=
  ls.filter fun l => trim l ≠ []

/-- The number of spaces at the start of a line. -/
def spaces (l : List Char) : Nat :=
  (l.takeWhile (· = ' ')).length

/-- A line without the spaces at its start. -/
def unspaced (l : List Char) : List Char :=
  l.dropWhile (· = ' ')

theorem joinLines_ne_nil {ls : List (List Char)} (hne : ls ≠ []) (h : ls ≠ [[]]) :
    joinLines ls ≠ [] := by
  obtain ⟨l, ls, rfl⟩ := List.exists_cons_of_ne_nil hne
  rcases eq_or_ne ls [] with rfl | hls
  · have hl : l ≠ [] := fun e => h (by rw [e])
    simpa [joinLines] using hl
  · rw [joinLines_cons l hls]
    exact List.append_ne_nil_of_right_ne_nil _ (List.cons_ne_nil _ _)

/-- Lines are the pieces of their text, unless there is a single one and it is empty. -/
theorem pieces_joinLines {ls : List (List Char)} (hn : ∀ l ∈ ls, '\n' ∉ l) (h : ls ≠ [[]]) :
    pieces (joinLines ls) = ls := by
  rcases eq_or_ne ls [] with rfl | hne
  · rfl
  · rw [pieces, if_neg (joinLines_ne_nil hne h), joinLines, List.splitOn_intercalate '\n' hn hne]

theorem solid_cons_of_blank {l : List Char} (h : trim l = []) (ls : List (List Char)) :
    solid (l :: ls) = solid ls :=
  List.filter_cons_of_neg (by simp [h])

theorem solid_cons_of_solid {l : List Char} (h : trim l ≠ []) (ls : List (List Char)) :
    solid (l :: ls) = l :: solid ls :=
  List.filter_cons_of_pos (by simp [h])

/-- Spaces in front of a text that does not start with a blank are counted exactly. -/
theorem spaces_replicate_append {l : List Char} (hne : l ≠ []) (h : trim l = l) (n : Nat) :
    spaces (List.replicate n ' ' ++ l) = n ∧ unspaced (List.replicate n ' ' ++ l) = l := by
  obtain ⟨c, cs, rfl⟩ := List.exists_cons_of_ne_nil hne
  have hstart : trimStart (c :: cs) = c :: cs := by rw [← h, trimStart_trim]
  have hc : c ≠ ' ' := by
    rintro rfl
    exact absurd (isBlank_head_trimStart hstart) (by decide)
  have hpad : ∀ d ∈ List.replicate n ' ', decide (d = ' ') = true := by
    intro d hd
    rw [List.eq_of_mem_replicate hd]
    rfl
  refine ⟨?_, ?_⟩
  · rw [spaces, List.takeWhile_append_of_pos hpad, List.takeWhile_cons_of_neg (by simpa using hc),
      List.append_nil, List.length_replicate]
  · rw [unspaced, List.dropWhile_append_of_pos hpad, List.dropWhile_cons_of_neg (by simpa using hc)]

end Text

namespace Layout

/-! ## Rows -/

/-- The level of a row that is not blank. -/
def Row.level? : Row → Option Nat
  | blank => none
  | line level _ => some level

/-- The content of a row that is not blank. -/
def Row.content? : Row → Option (List Char)
  | blank => none
  | line _ content => some content

theorem Row.level?_ofLine (level : Nat) (l : List Char) :
    (ofLine level l).level? = if l = [] then none else some level := by
  cases l <;> rfl

theorem Row.content?_ofLine (level : Nat) (l : List Char) :
    (ofLine level l).content? = if l = [] then none else some l := by
  cases l <;> rfl

theorem Row.Trimmed.trim_chars {level : Nat} {content : List Char}
    (h : (line level content).Trimmed) (w : IndentWidth) :
    Text.trim ((line level content).chars w) = content := by
  have hofLine : line level content = ofLine level (Text.trim content) := by
    obtain ⟨c, cs, rfl⟩ := List.exists_cons_of_ne_nil h.1
    rw [h.2.2, ofLine]
  rw [hofLine, trim_chars_ofLine, h.2.2]

section

variable {rs : List Row} (h : ∀ r ∈ rs, r.Trimmed) (w : IndentWidth)

include h

/-- What the lines that are not blank show of their rows. -/
theorem map_solid_chars {α : Type} {f : List Char → α} {g : Row → Option α} (hblank : g .blank = none)
    (hline : ∀ level content, (Row.line level content).Trimmed →
      g (.line level content) = some (f ((Row.line level content).chars w))) :
    (Text.solid (rs.map (Row.chars w))).map f = rs.filterMap g := by
  induction rs with
  | nil => rfl
  | cons r rs ih =>
    obtain ⟨hr, hrs⟩ := List.forall_mem_cons.1 h
    rw [List.map_cons]
    cases r with
    | blank => rw [Text.solid_cons_of_blank rfl, List.filterMap_cons_none hblank, ih hrs]
    | line level content =>
      have hsolid : Text.trim ((Row.line level content).chars w) ≠ [] := by
        rw [hr.trim_chars w]
        exact hr.1
      rw [Text.solid_cons_of_solid hsolid, List.filterMap_cons_some (hline level content hr),
        List.map_cons, ih hrs]

/-- The content of a row is what its line shows behind the spaces. -/
theorem unspaced_solid_chars :
    (Text.solid (rs.map (Row.chars w))).map Text.unspaced = rs.filterMap Row.content? := by
  refine map_solid_chars h w rfl fun level content hr => ?_
  rw [Row.chars, (Text.spaces_replicate_append hr.1 hr.2.2 _).2, Row.content?]

/-- The level of a row is shown by the spaces of its line. -/
theorem spaces_solid_chars :
    (Text.solid (rs.map (Row.chars w))).map Text.spaces =
      (rs.filterMap Row.level?).map (· * w.spaces) := by
  rw [List.map_filterMap]
  refine map_solid_chars h w rfl fun level content hr => ?_
  rw [Row.chars, (Text.spaces_replicate_append hr.1 hr.2.2 _).1, Row.level?, Option.map_some]

end

/-! ## Lines of a layout -/

/-- The lines of a layout, as they stand between its line feeds. -/
def shown (w : IndentWidth) (script : String) : List (List Char) :=
  Text.pieces (layout w script).toList

/-- The levels of the lines of a layout that are not blank, from the first to the last. -/
def levels (script : String) : List Nat :=
  (rows script.toList).filterMap Row.level?

theorem rows_ne_blank (cs : List Char) : rows cs ≠ [.blank] := by
  intro h
  have hopen : OpenEnded (Text.lines cs) := by
    rw [← Cursor.getLast?_arrange_eq_blank_iff]
    exact congrArg List.getLast? h
  obtain ⟨ms, l, -, hne, hrows⟩ := Cursor.arrange_of_openEnded hopen
  have hlength := congrArg List.length (hrows.symm.trans h)
  rw [List.length_append] at hlength
  exact hne (List.length_eq_zero_iff.1 (Nat.succ.inj hlength))

/-- A layout shows the rows of its script. -/
theorem shown_eq (w : IndentWidth) (script : String) :
    shown w script = (rows script.toList).map (Row.chars w) := by
  have htrimmed := trimmed_of_mem_rows script.toList
  rw [shown, toList_layout]
  apply Text.pieces_joinLines
  · exact fun l hl => (isLine_of_mem_map_chars htrimmed w l hl).1
  · intro h
    obtain ⟨r, hr, hchars⟩ := List.map_eq_singleton_iff.1 h
    have hblank : r = .blank :=
      ((htrimmed r (hr ▸ List.mem_singleton_self r)).chars_eq_nil_iff w).1 hchars
    exact rows_ne_blank _ (hblank ▸ hr)

/-! ## Running over lines -/

/-- What every character of code keeps of the open brackets, a line keeps. -/
theorem scan_keeps {level : Nat} {P : List Opened → Prop}
    (hcode : ∀ c stack, P stack → P (codeStack level c stack)) {stack : List Opened} (h : P stack)
    (mode : Mode) (cs : List Char) : P (scan level mode stack cs).stack := by
  fun_induction scan level mode stack cs with
  | case1 | case2 => exact h
  | case4 stack c cs hslash hstar ih => exact ih (hcode c stack h)
  | case3 stack cs ih => exact ih h
  | case5 stack quote c cs ih | case6 stack quote c cs ih => exact ih h
  | case7 stack c cs ih | case8 stack c cs ih => exact ih h

/-- What is open at the start of a script. -/
def State.start : State := ⟨.code, []⟩

/-- What is open after some lines. -/
def State.run (s : State) (ls : List (List Char)) : State :=
  ls.foldl (fun s l => s.after (Text.trim l)) s

/-- What a script leaves open. -/
def finish (script : String) : State :=
  State.start.run (Text.lines script.toList)

theorem State.run_append (s : State) (as bs : List (List Char)) :
    s.run (as ++ bs) = (s.run as).run bs :=
  List.foldl_append

theorem State.mode_after (s : State) (line : List Char) :
    (s.after line).mode = .code ∨ (s.after line).mode = .comment := by
  rw [after]
  cases (scan (lineLevel s line) s.mode s.stack line).mode with
  | code | string quote | escaped quote => exact .inl rfl
  | comment | commentStar => exact .inr rfl

theorem State.stack_after_nil (s : State) : (s.after []).stack = s.stack := by
  rw [after, scan]

theorem State.after_nil_of_code {s : State} (h : s.mode = .code) : s.after [] = s := by
  obtain ⟨mode, stack⟩ := s
  obtain rfl : mode = .code := h
  rfl

namespace Cursor

theorem state_next (c : Cursor) (l : List Char) :
    (c.next l).state = c.state.after (Text.trim l) := by
  rw [next]
  split_ifs with h
  · rw [h.1, State.after_nil_of_code h.2]
  · rfl

/-- The cursor behind some lines knows what they leave open. -/
theorem state_foldl_next (c : Cursor) (ls : List (List Char)) :
    (ls.foldl next c).state = c.state.run ls := by
  induction ls generalizing c with
  | nil => rfl
  | cons l ls ih => rw [List.foldl_cons, ih, state_next]; rfl

/-- The rows that are not blank belong to the lines that are not blank. -/
theorem filterMap_emit {α : Type} {f : Row → Option α} (hf : f .blank = none) (c : Cursor)
    (l : List Char) : (c.emit l).filterMap f = (f (c.row l)).toList := by
  rw [emit]
  split_ifs with hs hg
  · rw [row, Row.ofLine_eq_blank_iff.2 hs.1, hf]
    rfl
  · rw [List.filterMap_cons_none hf, List.filterMap_cons, List.filterMap_nil]
    cases f (c.row l) <;> rfl
  · rw [List.filterMap_cons, List.filterMap_nil]
    cases f (c.row l) <;> rfl

theorem content?_row (c : Cursor) (l : List Char) :
    (c.row l).content? = if Text.trim l = [] then none else some (Text.trim l) :=
  Row.content?_ofLine _ _

theorem level?_row (c : Cursor) (l : List Char) :
    (c.row l).level? = if Text.trim l = [] then none else some (lineLevel c.state (Text.trim l)) :=
  Row.level?_ofLine _ _

/-- The lines that are not blank are the contents of the rows. -/
theorem contents_arrange (c : Cursor) (ls : List (List Char)) :
    (c.arrange ls).filterMap Row.content? = (Text.solid ls).map Text.trim := by
  induction ls generalizing c with
  | nil => rfl
  | cons l ls ih =>
    rw [arrange_cons, List.filterMap_append, filterMap_emit rfl, content?_row, ih]
    by_cases hl : Text.trim l = []
    · rw [if_pos hl, Text.solid_cons_of_blank hl]
      rfl
    · rw [if_neg hl, Text.solid_cons_of_solid hl]
      rfl

theorem length_levels_arrange (c : Cursor) (ls : List (List Char)) :
    ((c.arrange ls).filterMap Row.level?).length = (Text.solid ls).length := by
  have hlength (rs : List Row) :
      (rs.filterMap Row.level?).length = (rs.filterMap Row.content?).length := by
    induction rs with
    | nil => rfl
    | cons r rs ih =>
      cases r with
      | blank => exact ih
      | line level content => exact congrArg (· + 1) ih
  rw [hlength, contents_arrange, List.length_map]

/-! ## Blank lines -/

theorem filterMap_due {α : Type} {f : Row → Option α} (hf : f .blank = none) (c : Cursor) :
    c.due.filterMap f = [] := by
  rw [due]
  split_ifs
  · exact List.filterMap_cons_none hf
  · rfl

/-- The rows around a line that is not blank. -/
theorem arrange_append_cons (c : Cursor) (as : List (List Char)) {l : List Char}
    (h : Text.trim l ≠ []) (ls : List (List Char)) :
    c.arrange (as ++ l :: ls) =
      c.arrange as ++ (as.foldl next c).due ++ (as.foldl next c).row l ::
        Cursor.arrange ⟨true, false, (as.foldl next c).state.after (Text.trim l)⟩ ls := by
  rw [arrange_append, arrange_cons_of_solid _ h, List.append_assoc]

variable {gap : List (List Char)} (hblank : ∀ l ∈ gap, Text.trim l = [])

include hblank

/-- Blank lines of code have no rows, and make a blank row due. -/
theorem arrange_blank_of_code {c : Cursor} (h : c.state.mode = .code) :
    c.arrange gap = [] ∧
      gap.foldl next c = if gap = [] then c else ⟨c.started, c.started, c.state⟩ := by
  induction gap generalizing c with
  | nil => exact ⟨rfl, rfl⟩
  | cons l gap ih =>
    obtain ⟨hl, hgap⟩ := List.forall_mem_cons.1 hblank
    have hskip : c.Skips l := ⟨hl, h⟩
    have hnext : c.next l = ⟨c.started, c.started, c.state⟩ := by rw [next, if_pos hskip]
    obtain ⟨hrows, hlast⟩ := ih hgap (c := c.next l) (by rw [hnext]; exact h)
    rw [arrange_cons, emit, if_pos hskip, hrows, List.foldl_cons, hlast, hnext]
    refine ⟨rfl, ?_⟩
    rw [if_neg (List.cons_ne_nil _ _)]
    split_ifs <;> rfl

/-- Blank lines of a comment have a blank row each. -/
theorem arrange_blank_of_comment {s : State} (h : s.mode = .comment) :
    Cursor.arrange ⟨true, false, s⟩ gap = gap.map (fun _ => .blank) ∧
      gap.foldl next ⟨true, false, s⟩ = ⟨true, false, s⟩ := by
  obtain ⟨mode, stack⟩ := s
  obtain rfl : mode = .comment := h
  induction gap with
  | nil => exact ⟨rfl, rfl⟩
  | cons l gap ih =>
    obtain ⟨hl, hgap⟩ := List.forall_mem_cons.1 hblank
    obtain ⟨hrows, hlast⟩ := ih hgap
    have hskip : ¬ Skips ⟨true, false, ⟨.comment, stack⟩⟩ l := fun hs => nomatch hs.2
    have hnext : next ⟨true, false, ⟨.comment, stack⟩⟩ l = ⟨true, false, ⟨.comment, stack⟩⟩ := by
      rw [next, if_neg hskip, hl]
      rfl
    rw [arrange_cons, emit, if_neg hskip, List.foldl_cons, hnext, hrows, hlast, row, hl]
    exact ⟨rfl, rfl⟩

end Cursor

end Layout

end SiteScript
