import SiteScript.Proofs.Script.TokenLayout

/-!
# Blocks of code

A `Block` is a run of plain tokens that opens no bracket which it does not close, that starts with a
token which is not blank and that ends with such a token on its last line.  The brackets in its literals
do not count, so whether tokens are a block does not depend on the contents of literals.  The lines of
a block are a `Fragment` (`Block.fragment`): the layout of a script treats them as it does on their own.
-/

namespace SiteScript.Token

open Layout

/-! ## Brackets -/

/-- The open brackets after a token, without the levels of their lines. -/
def bracket (opened : List Char) : Token → List Char
  | mark c =>
    if isOpener c then c :: opened
    else if isCloser c && opened.head?.bind closer? == some c then opened.tail
    else opened
  | literal _ _ => opened

/-- The open brackets after some tokens. -/
def brackets (opened : List Char) (ts : List Token) : List Char :=
  ts.foldl bracket opened

theorem brackets_append (opened : List Char) (ts us : List Token) :
    brackets opened (ts ++ us) = brackets (brackets opened ts) us :=
  List.foldl_append

/-- Tokens that close every bracket they open, and no other. -/
def Neutral (ts : List Token) : Prop := ∀ opened, brackets opened ts = opened

theorem Neutral.append {ts us : List Token} (h : Neutral ts) (h' : Neutral us) :
    Neutral (ts ++ us) := fun opened => by rw [brackets_append, h, h']

theorem neutral_intercalate {sep : List Token} (hsep : Neutral sep) {ls : List (List Token)}
    (h : ∀ l ∈ ls, Neutral l) : Neutral (sep.intercalate ls) :=
  intercalate_of_append (fun _ => rfl) (fun _ _ => Neutral.append) hsep h

theorem map_bracket_nest (level : Nat) (stack : List Opened) (t : Token) :
    (nest level stack t).map Opened.bracket = bracket (stack.map Opened.bracket) t := by
  cases t with
  | mark c =>
    have htop : closesTop c stack = ((stack.map Opened.bracket).head?.bind closer? == some c) := by
      cases stack <;> rfl
    rw [nest, codeStack, bracket, htop]
    split_ifs
    · rfl
    · rw [List.map_tail]
    · rfl
  | literal quote value => rfl

theorem map_bracket_foldl_nest (level : Nat) (stack : List Opened) (ts : List Token) :
    (ts.foldl (nest level) stack).map Opened.bracket = brackets (stack.map Opened.bracket) ts := by
  induction ts generalizing stack with
  | nil => rfl
  | cons t ts ih => rw [List.foldl_cons, ih, map_bracket_nest]; rfl

theorem bracket_of_isBlank (opened : List Char) {t : Token} (h : isBlank t = true) :
    bracket opened t = opened := by
  cases t with
  | mark c =>
    have hopener : isOpener c = false := by
      rcases ho : isOpener c with _ | _
      · rfl
      · simp only [isOpener, Bool.or_eq_true, decide_eq_true_eq, or_assoc] at ho
        obtain rfl | rfl | rfl := ho <;> cases h
    have hcloser : isCloser c = false := by
      rcases ho : isCloser c with _ | _
      · rfl
      · simp only [isCloser, Bool.or_eq_true, decide_eq_true_eq, or_assoc] at ho
        obtain rfl | rfl | rfl := ho <;> cases h
    rw [bracket, hopener, hcloser]
    rfl
  | literal quote value => rfl

theorem brackets_of_isBlank (opened : List Char) {ts : List Token}
    (h : ∀ t ∈ ts, isBlank t = true) : brackets opened ts = opened := by
  induction ts with
  | nil => rfl
  | cons t ts ih =>
    rw [brackets, List.foldl_cons, bracket_of_isBlank opened (h t List.mem_cons_self)]
    exact ih fun u hu => h u (List.mem_cons_of_mem _ hu)

/-- Blank marks are no brackets, so trimming a line leaves the open brackets as they are. -/
theorem brackets_trim (opened : List Char) (ts : List Token) :
    brackets opened (trim ts) = brackets opened ts := by
  have hstart : brackets opened (ts.dropWhile isBlank) = brackets opened ts := by
    conv_rhs => rw [← List.takeWhile_append_dropWhile (p := isBlank) (l := ts), brackets_append,
      brackets_of_isBlank opened fun t ht => List.mem_takeWhile_imp ht]
  rw [← hstart]
  conv_rhs => rw [← List.rdropWhile_append_rtakeWhile (p := isBlank) (l := ts.dropWhile isBlank),
    brackets_append, brackets_of_isBlank _ fun t ht => List.mem_rtakeWhile_imp ht]
  rfl

theorem brackets_flatten_lines (opened : List Char) (ts : List Token) :
    brackets opened (lines ts).flatten = brackets opened ts := by
  induction ts generalizing opened with
  | nil => rfl
  | cons t ts ih =>
    rw [lines]
    by_cases hn : t = mark '\n'
    · rw [if_pos hn, hn, List.flatten_cons, List.nil_append, ih]
      rfl
    · have hflat : (lines ts).headD [] ++ (lines ts).tail.flatten = (lines ts).flatten := by
        cases lines ts <;> rfl
      rw [if_neg hn, List.flatten_cons, List.cons_append, hflat]
      exact ih (bracket opened t)

theorem bracket_outline (opened : List Char) (t : Token) :
    bracket opened t.outline = bracket opened t := by
  cases t <;> rfl

theorem brackets_map_outline (opened : List Char) (ts : List Token) :
    brackets opened (ts.map outline) = brackets opened ts := by
  simp only [brackets, List.foldl_map, bracket_outline]

/-! ## What lines leave open -/

theorem state_eq {s : State} (hmode : s.mode = .code) (hstack : s.stack = []) : s = ⟨.code, []⟩ := by
  obtain ⟨mode, stack⟩ := s
  obtain rfl : mode = .code := hmode
  obtain rfl : stack = [] := hstack
  rfl

theorem trim_ne_nil {ts : List Token} {t : Token} (ht : t ∈ ts) (hb : isBlank t = false) :
    trim ts ≠ [] := by
  intro h
  rw [trim, List.rdropWhile_eq_nil_iff] at h
  rw [← List.takeWhile_append_dropWhile (p := isBlank) (l := ts), List.mem_append] at ht
  have hblank : isBlank t = true := ht.elim (fun ht => List.mem_takeWhile_imp ht) (h t)
  rw [hb] at hblank
  cases hblank

/-- A line of plain tokens changes the open brackets by those outside its literals. -/
theorem state_next_text {l : List Token} (h : ∀ t ∈ l, t.Plain) {c : Cursor}
    (hc : c.state.mode = .code) :
    (c.next (text l)).state.mode = .code ∧
      (c.next (text l)).state.stack.map Opened.bracket =
        brackets (c.state.stack.map Opened.bracket) l := by
  by_cases hs : c.Skips (text l)
  · have htrim : trim l = [] := text_eq_nil_iff.1 (by rw [← trim_text h]; exact hs.1)
    rw [Cursor.next, if_pos hs, ← brackets_trim, htrim]
    exact ⟨hc, rfl⟩
  · have hscan := scan_text (fun t ht => h t (mem_of_mem_trim ht))
      (lineLevel c.state (text (trim l))) c.state.stack
    rw [Cursor.next, if_neg hs, trim_text h, State.after, hc, hscan, map_bracket_foldl_nest,
      brackets_trim]
    exact ⟨rfl, rfl⟩

theorem state_foldl_next_text {ls : List (List Token)} (h : ∀ l ∈ ls, ∀ t ∈ l, t.Plain)
    {c : Cursor} (hc : c.state.mode = .code) :
    ((ls.map text).foldl Cursor.next c).state.mode = .code ∧
      ((ls.map text).foldl Cursor.next c).state.stack.map Opened.bracket =
        brackets (c.state.stack.map Opened.bracket) ls.flatten := by
  induction ls generalizing c with
  | nil => exact ⟨hc, rfl⟩
  | cons l ls ih =>
    obtain ⟨hl, hls⟩ := List.forall_mem_cons.1 h
    obtain ⟨hmode, hstack⟩ := state_next_text hl hc
    obtain ⟨hmode, hrest⟩ := ih hls hmode
    rw [List.map_cons, List.foldl_cons, hrest, hstack, List.flatten_cons, brackets_append]
    exact ⟨hmode, rfl⟩

/-! ## Blocks -/

/-- Plain tokens that open nothing they do not close, and whose first and last lines are not blank. -/
structure Block (ts : List Token) : Prop where
  plain : ∀ t ∈ ts, t.Plain
  head : ∃ t ∈ ts.head?, isBlank t = false
  last : ∃ t, isBlank t = false ∧ [t, mark '\n'] <:+ ts
  closed : brackets [] ts = []

theorem ne_newline_of_isBlank {t : Token} (h : isBlank t = false) : t ≠ mark '\n' := by
  rintro rfl
  exact absurd h (by decide)

theorem exists_last_line {t : Token} (h : t ≠ mark '\n') (ts : List Token) :
    ∃ ls l, lines (ts ++ [t, mark '\n']) = ls ++ [l] ∧ t ∈ l := by
  induction ts with
  | nil =>
    refine ⟨[], [t], ?_, List.mem_singleton_self t⟩
    rw [List.nil_append, lines, if_neg h]
    rfl
  | cons u ts ih =>
    obtain ⟨ls, l, hlines, hl⟩ := ih
    rw [List.cons_append, lines, hlines]
    by_cases hu : u = mark '\n'
    · rw [if_pos hu]
      exact ⟨[] :: ls, l, rfl, hl⟩
    · rw [if_neg hu]
      cases ls with
      | nil => exact ⟨[], u :: l, rfl, List.mem_cons_of_mem u hl⟩
      | cons m ls => exact ⟨(u :: m) :: ls, l, rfl, hl⟩

/-- Behind a block of code nothing is open, and the layout treats it as it does on its own. -/
theorem Block.fragment {ts : List Token} (h : Block ts) : Fragment (Text.lines (text ts)) := by
  have hplain : ∀ l ∈ lines ts, ∀ t ∈ l, t.Plain := fun l hl t ht => h.plain t (mem_of_mem_lines hl ht)
  rw [lines_text h.plain]
  refine ⟨?_, ?_⟩
  · obtain ⟨t, ht, hb⟩ := h.head
    obtain ⟨us, rfl⟩ := List.head?_eq_some_iff.1 ht
    have hlines := hplain
    rw [lines, if_neg (ne_newline_of_isBlank hb)] at hlines ⊢
    refine ⟨_, rfl, ?_⟩
    rw [trim_text (hlines _ List.mem_cons_self)]
    exact fun e => trim_ne_nil List.mem_cons_self hb (text_eq_nil_iff.1 e)
  · obtain ⟨t, hb, us, rfl⟩ := h.last
    obtain ⟨hmode, hstack⟩ := state_foldl_next_text hplain (c := .initial) rfl
    obtain ⟨ls, l, hlines, hl⟩ := exists_last_line (ne_newline_of_isBlank hb) us
    have htrim : Text.trim (text l) ≠ [] := by
      have hmem : l ∈ lines (us ++ [t, mark '\n']) := by
        rw [hlines]
        exact List.mem_append_right _ (List.mem_singleton_self l)
      rw [trim_text (hplain l hmem)]
      exact fun e => trim_ne_nil hl hb (text_eq_nil_iff.1 e)
    rw [brackets_flatten_lines] at hstack
    have hstate := state_eq hmode (List.map_eq_nil_iff.1 (hstack.trans h.closed))
    rw [hlines, List.map_append, List.foldl_append, List.map_singleton, List.foldl_cons,
      List.foldl_nil, Cursor.next_of_trim_ne_nil _ htrim] at hstate ⊢
    exact congrArg (Cursor.mk true false) hstate

/-! ## Arranging blocks -/

/-- The rows of some tokens behind a cursor. -/
def arrange (c : Cursor) (ts : List Token) : List Row :=
  c.arrange ((lines ts).map text)

namespace Block

variable {ts : List Token}

theorem ne_nil (h : Block ts) : ts ≠ [] := by
  rintro rfl
  obtain ⟨t, ht, -⟩ := h.head
  cases ht

theorem fragment_lines (h : Block ts) : Fragment ((lines ts).map text) :=
  lines_text h.plain ▸ h.fragment

theorem arrange_ne_nil (h : Block ts) : arrange .initial ts ≠ [] :=
  h.fragment_lines.arrange_ne_nil

theorem lines_append (h : Block ts) (us : List Token) : lines (ts ++ us) = lines ts ++ lines us := by
  obtain ⟨t, -, vs, rfl⟩ := h.last
  have hsplit : vs ++ [t, mark '\n'] = vs ++ [t] ++ [mark '\n'] := by
    rw [List.append_assoc]
    rfl
  rw [hsplit, List.append_assoc, List.singleton_append, lines_append_newline]

theorem initial_append (h : Block ts) (us : List Token) :
    arrange .initial (ts ++ us) = arrange .initial ts ++ arrange .ready us := by
  rw [arrange, h.lines_append, List.map_append, h.fragment_lines.initial_append]
  rfl

theorem ready_append (h : Block ts) (us : List Token) :
    arrange .ready (ts ++ us) = arrange .initial ts ++ arrange .ready us := by
  rw [arrange, h.lines_append, List.map_append, h.fragment_lines.arrange_append]
  rfl

theorem blank_append (h : Block ts) (us : List Token) :
    arrange .ready (mark '\n' :: (ts ++ us)) =
      .blank :: (arrange .initial ts ++ arrange .ready us) := by
  have hlines : lines (mark '\n' :: (ts ++ us)) = [] :: (lines ts ++ lines us) := by
    rw [lines, if_pos rfl, h.lines_append]
  rw [arrange, hlines, List.map_cons, List.map_append]
  exact h.fragment_lines.blank_append _

/-- A block that has been laid out has the same rows again in a script. -/
theorem layout_append (h : Block ts) (w : IndentWidth) (us : List Token) :
    arrange .ready (layout w ts ++ mark '\n' :: us) = arrange .initial ts ++ arrange .ready us := by
  have hne : (place false false [] (lines ts)).map (indent w) ≠ [] := by
    intro e
    have htext := map_text_indent h.plain w
    rw [e] at htext
    exact h.fragment_lines.arrange_ne_nil (List.map_eq_nil_iff.1 htext.symm)
  have hlines : ∀ l ∈ (place false false [] (lines ts)).map (indent w), mark '\n' ∉ l := by
    intro l hl hn
    obtain ⟨r, hr, rfl⟩ := List.mem_map.1 hl
    rw [indent] at hn
    split_ifs at hn with hr'
    · cases hn
    · obtain hn | hn := List.mem_append.1 hn
      · exact absurd (List.eq_of_mem_replicate hn) (by decide)
      · obtain ⟨m, hm, hmn⟩ := mem_of_mem_place hr hn
        exact ne_newline_of_mem_lines hm hmn
  rw [arrange, layout, lines_intercalate_append hne hlines, List.map_append, map_text_indent h.plain w]
  exact h.fragment_lines.arrange_chars_append w _

/-- A text that is a block without the end of its last line. -/
theorem exists_of_toList {s : String} (h : Block ts) (hs : s.toList ++ ['\n'] = text ts) :
    ∃ us, s.toList = text us ∧ ts = us ++ [mark '\n'] ∧ lines us = lines ts ∧ trim us = us := by
  obtain ⟨t, hb, vs, rfl⟩ := h.last
  have hsplit : vs ++ [t, mark '\n'] = vs ++ [t] ++ [mark '\n'] := by
    rw [List.append_assoc]
    rfl
  refine ⟨vs ++ [t], ?_, hsplit, ?_, ?_⟩
  · rw [hsplit, text_append] at hs
    exact List.append_cancel_right hs
  · have hn := ne_newline_of_isBlank hb
    clear h hs hsplit
    induction vs with
    | nil => simp [lines, hn]
    | cons v vs ih => rw [List.cons_append, List.cons_append, lines, lines, ih]
  · have hstart : (vs ++ [t]).dropWhile isBlank = vs ++ [t] := by
      obtain ⟨u, hu, hub⟩ := h.head
      cases vs with
      | nil => exact List.dropWhile_cons_of_neg (by rw [hb]; exact Bool.false_ne_true)
      | cons v vs =>
        cases hu
        exact List.dropWhile_cons_of_neg (by rw [hub]; exact Bool.false_ne_true)
    rw [trim, hstart, List.rdropWhile_concat_neg _ _ _ (by rw [hb]; exact Bool.false_ne_true)]

theorem toList_layout {s : String} (h : Block ts) (hs : s.toList ++ ['\n'] = text ts)
    (w : IndentWidth) :
    (Layout.layout w s).toList = Text.joinLines ((arrange .initial ts).map (Row.chars w)) := by
  obtain ⟨us, hus, rfl, hlines, -⟩ := h.exists_of_toList hs
  rw [Layout.layout, String.toList_ofList, hus, rows,
    lines_text fun t ht => h.plain t (List.mem_append_left _ ht), hlines]
  rfl

/-- A block of one line is laid out as it is. -/
theorem toList_line {s : String} (h : Block ts) (hs : s.toList ++ ['\n'] = text ts)
    (hn : '\n' ∉ s.toList) (w : IndentWidth) :
    s.toList = Text.joinLines ((arrange .initial ts).map (Row.chars w)) := by
  obtain ⟨us, hus, rfl, -, htrim⟩ := h.exists_of_toList hs
  have hplain : ∀ t ∈ us, t.Plain := fun t ht => h.plain t (List.mem_append_left _ ht)
  have hmem : mark '\n' ∉ us := fun e => hn (hus ▸ List.mem_flatMap.2 ⟨_, e, List.mem_singleton_self _⟩)
  have htext : Text.trim (text us) = text us := by rw [trim_text hplain, htrim]
  have hne : Text.trim (text us) ≠ [] := by
    intro e
    rw [htext, text_eq_nil_iff] at e
    rw [e] at h
    obtain ⟨t, ht, hb⟩ := h.head
    cases ht
    exact absurd hb (by decide)
  rw [arrange, lines_line_append hmem, lines, List.map_singleton,
    Cursor.map_chars_arrange_singleton hne, htext, hus]
  exact List.intercalate_singleton.symm

end Block

end SiteScript.Token
