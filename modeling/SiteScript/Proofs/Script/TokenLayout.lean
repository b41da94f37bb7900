import Mathlib.Tactic.Conv
import SiteScript.Proofs.Layout.Cursor
import SiteScript.Proofs.Script.Token

/-!
# Layout of tokens

What `Layout.layout` does to the text of plain tokens, it does to the tokens: `Token.layout` breaks
them into lines, takes the blank marks off both ends of a line and indents it by nesting, and
`layout_text` says that its text is the layout of the text.  The contents of literals have no part in
this (`map_outline_layout`), and no token that is not blank is lost or changed (`solid_layout`).
-/

namespace SiteScript.Token

/-! ## Lines -/

/-- The lines of some tokens. -/
def lines : List Token → List (List Token)
  | [] => []
  | t :: ts =>
    if t = mark '\n' then [] :: lines ts else (t :: (lines ts).headD []) :: (lines ts).tail

theorem lines_append_ordinary {l : List Char} (hne : l ≠ [])
    (h : ∀ c ∈ l, Literal.isTerminator c = false) (cs : List Char) :
    Text.lines (l ++ cs) = (l ++ (Text.lines cs).headD []) :: (Text.lines cs).tail := by
  induction l with
  | nil => exact absurd rfl hne
  | cons c l ih =>
    have hc := h c List.mem_cons_self
    have hn : c ≠ '\n' := by
      rintro rfl
      cases hc
    have hr : c ≠ '\r' := by
      rintro rfl
      cases hc
    rw [List.cons_append, Text.lines_cons hn fun e => absurd e hr]
    cases l with
    | nil => rfl
    | cons d l =>
      rw [ih (List.cons_ne_nil d l) fun x hx => h x (List.mem_cons_of_mem _ hx)]
      rfl

theorem Plain.ordinary {t : Token} (h : t.Plain) (hn : t ≠ mark '\n') :
    ∀ c ∈ t.chars, Literal.isTerminator c = false := by
  cases t with
  | mark c =>
    intro d hd
    rw [chars, List.mem_singleton] at hd
    rw [hd]
    exact h.2.resolve_left fun e => hn (e ▸ rfl)
  | literal quote value => exact fun c hc => Literal.isTerminator_of_mem_text h hc

/-- A line feed stands in no literal, so the lines of a text are those of its tokens. -/
theorem lines_text {ts : List Token} (h : ∀ t ∈ ts, t.Plain) :
    Text.lines (text ts) = (lines ts).map text := by
  induction ts with
  | nil => rfl
  | cons t ts ih =>
    have hts := ih fun u hu => h u (List.mem_cons_of_mem _ hu)
    rw [lines, text_cons]
    by_cases hn : t = mark '\n'
    · rw [if_pos hn, hn, List.map_cons, ← hts]
      rfl
    · rw [if_neg hn, lines_append_ordinary t.chars_ne_nil ((h t List.mem_cons_self).ordinary hn), hts,
        List.map_cons, text_cons, List.map_tail]
      cases lines ts <;> rfl

theorem mem_of_mem_lines {ts l : List Token} (hl : l ∈ lines ts) {t : Token} (ht : t ∈ l) :
    t ∈ ts := by
  induction ts generalizing l with
  | nil => cases hl
  | cons u ts ih =>
    rw [lines] at hl
    split_ifs at hl with hu
    · obtain rfl | hl := List.mem_cons.1 hl
      · cases ht
      · exact List.mem_cons_of_mem _ (ih hl ht)
    · obtain rfl | hl := List.mem_cons.1 hl
      · obtain rfl | ht := List.mem_cons.1 ht
        · exact List.mem_cons_self
        · cases hs : lines ts with
          | nil => rw [hs] at ht; cases ht
          | cons m ms =>
            have hm : m ∈ lines ts := hs ▸ List.mem_cons_self
            rw [hs] at ht
            exact List.mem_cons_of_mem _ (ih hm ht)
      · exact List.mem_cons_of_mem _ (ih (List.mem_of_mem_tail hl) ht)

theorem ne_newline_of_mem_lines {ts l : List Token} (hl : l ∈ lines ts) : mark '\n' ∉ l := by
  induction ts generalizing l with
  | nil => cases hl
  | cons u ts ih =>
    have hhead : mark '\n' ∉ (lines ts).headD [] := by
      cases hs : lines ts with
      | nil => exact List.not_mem_nil
      | cons m ms =>
        have hm : m ∈ lines ts := hs ▸ List.mem_cons_self
        exact ih hm
    rw [lines] at hl
    split_ifs at hl with hu
    · obtain rfl | hl := List.mem_cons.1 hl
      · exact List.not_mem_nil
      · exact ih hl
    · obtain rfl | hl := List.mem_cons.1 hl
      · exact fun h => (List.mem_cons.1 h).elim (fun e => hu e.symm) hhead
      · exact ih (List.mem_of_mem_tail hl)

theorem lines_ne_nil {ts : List Token} (h : ts ≠ []) : lines ts ≠ [] := by
  obtain ⟨t, ts, rfl⟩ := List.exists_cons_of_ne_nil h
  rw [lines]
  split_ifs
  · exact List.cons_ne_nil _ _
  · exact List.cons_ne_nil _ _

theorem lines_append_newline (ts us : List Token) :
    lines (ts ++ mark '\n' :: us) = lines (ts ++ [mark '\n']) ++ lines us := by
  induction ts with
  | nil => rfl
  | cons t ts ih =>
    rw [List.cons_append, List.cons_append, lines, lines, ih]
    split_ifs
    · rfl
    · have hne : ts ++ [mark '\n'] ≠ [] := by simp
      obtain ⟨l, ls, h⟩ := List.exists_cons_of_ne_nil (lines_ne_nil hne)
      rw [h]
      rfl

theorem lines_line_append {l : List Token} (h : mark '\n' ∉ l) (us : List Token) :
    lines (l ++ mark '\n' :: us) = l :: lines us := by
  induction l with
  | nil => rfl
  | cons t l ih =>
    obtain ⟨ht, hl⟩ := not_or.1 fun e => h (List.mem_cons.2 e)
    rw [List.cons_append, lines, if_neg fun e => ht e.symm, ih hl]
    rfl

theorem lines_intercalate_append {ls : List (List Token)} (hne : ls ≠ [])
    (h : ∀ l ∈ ls, mark '\n' ∉ l) (us : List Token) :
    lines ([mark '\n'].intercalate ls ++ mark '\n' :: us) = ls ++ lines us := by
  induction ls with
  | nil => exact absurd rfl hne
  | cons l ls ih =>
    obtain ⟨hl, hls⟩ := List.forall_mem_cons.1 h
    cases ls with
    | nil => rw [List.intercalate_singleton, lines_line_append hl]; rfl
    | cons m ls =>
      rw [List.intercalate_cons_cons, List.append_assoc, List.append_assoc, List.singleton_append,
        lines_line_append hl, ih (List.cons_ne_nil m ls) hls]
      rfl

theorem outline_eq_mark_iff {t : Token} {c : Char} : t.outline = mark c ↔ t = mark c := by
  cases t <;> simp [outline]

theorem lines_map_outline (ts : List Token) :
    lines (ts.map outline) = (lines ts).map (List.map outline) := by
  induction ts with
  | nil => rfl
  | cons t ts ih =>
    rw [List.map_cons, lines, lines, ih]
    by_cases hn : t = mark '\n'
    · rw [if_pos hn, if_pos (outline_eq_mark_iff.2 hn), List.map_cons]
      rfl
    · rw [if_neg hn, if_neg fun e => hn (outline_eq_mark_iff.1 e), List.map_cons, List.map_tail,
        List.map_cons]
      cases lines ts <;> rfl

/-! ## Trimming -/

/-- Whether a token is a blank mark. -/
def isBlank : Token → Bool
  | mark c => Text.isBlank c
  | literal _ _ => false

/-- Tokens without the blank marks at either end. -/
def trim (ts : List Token) : List Token :=
  (ts.dropWhile isBlank).rdropWhile isBlank

theorem not_isBlank_of_isQuote {quote : Char} (h : Literal.IsQuote quote) :
    ¬ Text.isBlank quote = true := by
  obtain rfl | rfl := h <;> decide

theorem dropWhile_text {ts : List Token} (h : ∀ t ∈ ts, t.Plain) :
    (text ts).dropWhile Text.isBlank = text (ts.dropWhile isBlank) := by
  induction ts with
  | nil => rfl
  | cons t ts ih =>
    have hts := ih fun u hu => h u (List.mem_cons_of_mem _ hu)
    rw [text_cons]
    cases t with
    | mark c =>
      rw [chars, List.singleton_append]
      by_cases hc : Text.isBlank c = true
      · rw [List.dropWhile_cons_of_pos hc, hts, List.dropWhile_cons_of_pos (by exact hc)]
      · rw [List.dropWhile_cons_of_neg hc, List.dropWhile_cons_of_neg (by exact hc), text_cons]
        rfl
    | literal quote value =>
      have hq : Literal.IsQuote quote := h _ List.mem_cons_self
      rw [chars, Literal.text, List.cons_append, List.cons_append,
        List.dropWhile_cons_of_neg (not_isBlank_of_isQuote hq),
        List.dropWhile_cons_of_neg (by exact Bool.false_ne_true), text_cons]
      rfl

theorem rdropWhile_text {ts : List Token} (h : ∀ t ∈ ts, t.Plain) :
    (text ts).rdropWhile Text.isBlank = text (ts.rdropWhile isBlank) := by
  induction ts using List.reverseRecOn with
  | nil => rfl
  | append_singleton ts t ih =>
    have hts := ih fun u hu => h u (List.mem_append_left _ hu)
    rw [text_append]
    cases t with
    | mark c =>
      have hlast : text [mark c] = [c] := rfl
      rw [hlast]
      by_cases hc : Text.isBlank c = true
      · rw [List.rdropWhile_concat_pos _ _ _ hc, hts, List.rdropWhile_concat_pos _ _ _ (by exact hc)]
      · rw [List.rdropWhile_concat_neg _ _ _ hc, List.rdropWhile_concat_neg _ _ _ (by exact hc),
          text_append]
        rfl
    | literal quote value =>
      have hq : Literal.IsQuote quote := h _ (List.mem_append_right _ (List.mem_singleton_self _))
      have hlast : text [literal quote value] =
          quote :: value.toList.flatMap (Literal.written quote) ++ [quote] := List.append_nil _
      rw [hlast, ← List.append_assoc,
        List.rdropWhile_concat_neg _ _ _ (not_isBlank_of_isQuote hq),
        List.rdropWhile_concat_neg _ _ _ (by exact Bool.false_ne_true), text_append, hlast,
        List.append_assoc]

theorem trim_text {ts : List Token} (h : ∀ t ∈ ts, t.Plain) :
    Text.trim (text ts) = text (trim ts) := by
  rw [trim, ← rdropWhile_text fun t ht => h t ((List.dropWhile_sublist _).subset ht),
    ← dropWhile_text h]
  rfl

theorem mem_of_mem_trim {ts : List Token} {t : Token} (h : t ∈ trim ts) : t ∈ ts :=
  (List.dropWhile_sublist _).subset ((List.rdropWhile_prefix _ _).subset h)

theorem isBlank_comp_outline : isBlank ∘ outline = isBlank := by
  funext t
  cases t <;> rfl

theorem trim_map_outline (ts : List Token) : trim (ts.map outline) = (trim ts).map outline := by
  rw [trim, trim, List.rdropWhile, List.rdropWhile, List.dropWhile_map, isBlank_comp_outline,
    ← List.map_reverse, List.dropWhile_map, isBlank_comp_outline, ← List.map_reverse]

/-! ## Tokens that are not blank -/

/-- The tokens without the blank marks among them. -/
def solid (ts : List Token) : List Token :=
  ts.filter fun t => !isBlank t

theorem solid_append (ts us : List Token) : solid (ts ++ us) = solid ts ++ solid us :=
  List.filter_append ts us

theorem solid_of_isBlank {ts : List Token} (h : ∀ t ∈ ts, isBlank t = true) : solid ts = [] := by
  rw [solid, List.filter_eq_nil_iff]
  intro t ht
  simp [h t ht]

theorem solid_of_not_isBlank {ts : List Token} (h : ∀ t ∈ ts, isBlank t = false) :
    solid ts = ts := by
  rw [solid, List.filter_eq_self]
  intro t ht
  simp [h t ht]

theorem solid_intercalate {sep : List Token} (hsep : solid sep = []) (ls : List (List Token)) :
    solid (sep.intercalate ls) = ls.flatMap solid := by
  rw [map_intercalate rfl solid_append, hsep, nil_intercalate, List.flatMap]

theorem values_solid (ts : List Token) : values (solid ts) = values ts := by
  induction ts with
  | nil => rfl
  | cons t ts ih =>
    rw [← List.singleton_append, solid_append, values_append, values_append, ih]
    cases t with
    | mark c => cases hc : Text.isBlank c <;> simp [solid, isBlank, hc, values, value?]
    | literal quote value => rfl

theorem solid_lines (ts : List Token) : (lines ts).flatMap solid = solid ts := by
  induction ts with
  | nil => rfl
  | cons t ts ih =>
    rw [lines]
    by_cases hn : t = mark '\n'
    · rw [if_pos hn, hn, List.flatMap_cons, ih]
      rfl
    · rw [if_neg hn, List.flatMap_cons, ← List.singleton_append, solid_append,
        ← List.singleton_append (l := ts), solid_append, ← ih]
      cases lines ts with
      | nil => exact congrArg (· ++ []) (List.append_nil _)
      | cons l ls => rw [List.flatMap_cons, List.append_assoc]; rfl

theorem solid_dropWhile (ts : List Token) : solid (ts.dropWhile isBlank) = solid ts := by
  conv_rhs => rw [← List.takeWhile_append_dropWhile (p := isBlank) (l := ts)]
  rw [solid_append, solid_of_isBlank fun t ht => List.mem_takeWhile_imp ht, List.nil_append]

theorem solid_trim (ts : List Token) : solid (trim ts) = solid ts := by
  have hreverse (us : List Token) : solid us.reverse = (solid us).reverse := List.filter_reverse
  rw [trim, List.rdropWhile, hreverse, solid_dropWhile, hreverse, List.reverse_reverse,
    solid_dropWhile]

/-! ## Nesting -/

/-- The open brackets after a token on a line of the given level. -/
def nest (level : Nat) (stack : List Layout.Opened) : Token → List Layout.Opened
  | mark c => Layout.codeStack level c stack
  | literal _ _ => stack

theorem scan_mark {c : Char} (hc : isSpecial c = false) (level : Nat) (stack : List Layout.Opened)
    (cs : List Char) : Layout.scan level .code stack (c :: cs) =
      Layout.scan level .code (Layout.codeStack level c stack) cs := by
  have hslash : c ≠ '/' := by
    rintro rfl
    cases hc
  have hquote : Layout.isQuote c = false := by
    rw [isSpecial, Bool.or_eq_false_iff] at hc
    exact hc.1
  rw [Layout.scan]
  · rw [Layout.codeMode, hquote]
    rfl
  · exact fun _ h => absurd h hslash
  · exact fun _ h => absurd h hslash

/-- The scanner sees the brackets outside literals and is in code again at the end. -/
theorem scan_text {ts : List Token} (h : ∀ t ∈ ts, t.Plain) (level : Nat)
    (stack : List Layout.Opened) :
    Layout.scan level .code stack (text ts) = ⟨.code, ts.foldl (nest level) stack⟩ := by
  induction ts generalizing stack with
  | nil => rw [text, List.flatMap_nil, Layout.scan]; rfl
  | cons t ts ih =>
    have hts := fun stack => ih (fun u hu => h u (List.mem_cons_of_mem _ hu)) stack
    rw [text_cons, List.foldl_cons]
    cases t with
    | mark c =>
      have hc : isSpecial c = false := (h _ List.mem_cons_self).1
      rw [chars, List.singleton_append, scan_mark hc, hts]
      rfl
    | literal quote value =>
      have hq : Literal.IsQuote quote := h _ List.mem_cons_self
      rw [chars, Literal.scan_text hq, hts]
      rfl

theorem nest_outline (level : Nat) (stack : List Layout.Opened) (t : Token) :
    nest level stack t.outline = nest level stack t := by
  cases t <;> rfl

theorem codeLevel_text_outline (stack : List Layout.Opened) (ts : List Token) :
    Layout.codeLevel stack (text (ts.map outline)) = Layout.codeLevel stack (text ts) := by
  cases ts with
  | nil => rfl
  | cons t ts => cases t <;> rfl

/-! ## Placing lines -/

/-- Give every line its level, with blank lines as the layout wants them. -/
def place (started gap : Bool) (stack : List Layout.Opened) :
    List (List Token) → List (Nat × List Token)
  | [] => []
  | l :: ls =>
    if trim l = [] then place started started stack ls
    else
      let level := Layout.codeLevel stack (text (trim l))
      let rest := place true false ((trim l).foldl (nest level) stack) ls
      if gap then (0, []) :: (level, trim l) :: rest else (level, trim l) :: rest

/-- The row of a line that has a level. -/
def row (r : Nat × List Token) : Layout.Row :=
  .ofLine r.1 (text r.2)

theorem arrange_map_text {ls : List (List Token)} (h : ∀ l ∈ ls, ∀ t ∈ l, t.Plain)
    (started gap : Bool) (stack : List Layout.Opened) :
    Layout.arrange started gap ⟨.code, stack⟩ (ls.map text) =
      (place started gap stack ls).map row := by
  induction ls generalizing started gap stack with
  | nil => rfl
  | cons l ls ih =>
    have hl := h l List.mem_cons_self
    have hls := ih fun m hm => h m (List.mem_cons_of_mem _ hm)
    have htrim : Text.trim (text l) = text (trim l) := trim_text hl
    rw [List.map_cons, Layout.arrange, place, htrim]
    by_cases hb : trim l = []
    · rw [if_pos hb, ← hls, hb]
      exact if_pos ⟨rfl, rfl⟩
    · have hne : ¬ (text (trim l) = [] ∧ Layout.Mode.code = .code) :=
        fun e => hb (text_eq_nil_iff.1 e.1)
      have hlevel : Layout.lineLevel ⟨.code, stack⟩ (text (trim l)) =
          Layout.codeLevel stack (text (trim l)) := if_pos rfl
      have hafter : Layout.State.after ⟨.code, stack⟩ (text (trim l)) =
          ⟨.code, (trim l).foldl (nest (Layout.codeLevel stack (text (trim l)))) stack⟩ := by
        rw [Layout.State.after, hlevel, scan_text fun t ht => hl t (mem_of_mem_trim ht)]
        rfl
      rw [if_neg hb]
      refine (if_neg hne).trans ?_
      rw [hlevel, hafter, hls]
      cases gap <;> rfl

theorem place_map_outline (ls : List (List Token)) (started gap : Bool)
    (stack : List Layout.Opened) :
    place started gap stack (ls.map (List.map outline)) =
      (place started gap stack ls).map fun r => (r.1, r.2.map outline) := by
  induction ls generalizing started gap stack with
  | nil => rfl
  | cons l ls ih =>
    rw [List.map_cons, place, place, trim_map_outline]
    by_cases hb : trim l = []
    · rw [if_pos hb, if_pos (by rw [hb]; rfl), ih]
    · have hnest (level : Nat) : ((trim l).map outline).foldl (nest level) stack =
          (trim l).foldl (nest level) stack := by
        simp only [List.foldl_map, nest_outline]
      rw [if_neg hb, if_neg fun e => hb (List.map_eq_nil_iff.1 e)]
      simp only [codeLevel_text_outline, hnest, ih]
      cases gap <;> rfl

theorem mem_of_mem_place {ls : List (List Token)} {started gap : Bool} {stack : List Layout.Opened}
    {r : Nat × List Token} (hr : r ∈ place started gap stack ls) {t : Token} (ht : t ∈ r.2) :
    ∃ l ∈ ls, t ∈ l := by
  induction ls generalizing started gap stack with
  | nil => cases hr
  | cons l ls ih =>
    have hrest {started gap : Bool} {stack : List Layout.Opened}
        (hr : r ∈ place started gap stack ls) : ∃ m ∈ l :: ls, t ∈ m := by
      obtain ⟨m, hm, htm⟩ := ih hr
      exact ⟨m, List.mem_cons_of_mem _ hm, htm⟩
    have hrow {level : Nat} {rs : List (Nat × List Token)} (hr : r ∈ (level, trim l) :: rs)
        (hrs : r ∈ rs → ∃ m ∈ l :: ls, t ∈ m) : ∃ m ∈ l :: ls, t ∈ m := by
      obtain rfl | hr := List.mem_cons.1 hr
      · exact ⟨l, List.mem_cons_self, mem_of_mem_trim ht⟩
      · exact hrs hr
    rw [place] at hr
    split_ifs at hr with hb hg
    · exact hrest hr
    · obtain rfl | hr := List.mem_cons.1 hr
      · cases ht
      · exact hrow hr hrest
    · exact hrow hr hrest

theorem solid_place (ls : List (List Token)) (started gap : Bool) (stack : List Layout.Opened) :
    (place started gap stack ls).flatMap (fun r => solid r.2) = ls.flatMap solid := by
  induction ls generalizing started gap stack with
  | nil => rfl
  | cons l ls ih =>
    rw [place, List.flatMap_cons, ← solid_trim l]
    split_ifs with hb hg
    · rw [ih, hb]
      rfl
    · rw [List.flatMap_cons, List.flatMap_cons, ih]
      rfl
    · rw [List.flatMap_cons, ih]

/-! ## Laying out -/

/-- The tokens of a row. -/
def indent (w : IndentWidth) (r : Nat × List Token) : List Token :=
  if r.2 = [] then [] else List.replicate (r.1 * w.spaces) (mark ' ') ++ r.2

/-- Tokens with their lines indented by nesting. -/
def layout (w : IndentWidth) (ts : List Token) : List Token :=
  [mark '\n'].intercalate ((place false false [] (lines ts)).map (indent w))

theorem text_replicate (n : Nat) (c : Char) : text (List.replicate n (mark c)) = List.replicate n c := by
  rw [← List.map_replicate, ← marks, text_marks]

theorem text_indent (w : IndentWidth) (r : Nat × List Token) :
    text (indent w r) = (row r).chars w := by
  obtain ⟨level, ts⟩ := r
  by_cases hts : ts = []
  · rw [indent, if_pos hts, row, hts]
    rfl
  · obtain ⟨c, cs, hc⟩ := List.exists_cons_of_ne_nil fun e => hts (text_eq_nil_iff.1 e)
    rw [indent, if_neg hts, text_append, text_replicate, row, hc]
    rfl

theorem map_text_indent {ts : List Token} (h : ∀ t ∈ ts, t.Plain) (w : IndentWidth) :
    ((place false false [] (lines ts)).map (indent w)).map text =
      (Layout.Cursor.initial.arrange ((lines ts).map text)).map (Layout.Row.chars w) := by
  have hrows : Layout.Cursor.initial.arrange ((lines ts).map text) =
      (place false false [] (lines ts)).map row :=
    arrange_map_text (fun l hl t ht => h t (mem_of_mem_lines hl ht)) false false []
  rw [hrows, List.map_map, List.map_map]
  exact List.map_congr_left fun r _ => text_indent w r

/-- The layout of the text of plain tokens is the text of their layout. -/
theorem layout_text {ts : List Token} (h : ∀ t ∈ ts, t.Plain) (w : IndentWidth) :
    Layout.layout w (String.ofList (text ts)) = String.ofList (text (layout w ts)) := by
  rw [Layout.layout, String.toList_ofList, layout, text_intercalate, map_text_indent h w,
    ← lines_text h]
  rfl

theorem plain_layout {ts : List Token} (h : ∀ t ∈ ts, t.Plain) (w : IndentWidth) :
    ∀ t ∈ layout w ts, t.Plain := by
  intro t ht
  obtain ht | ⟨l, hl, ht⟩ := mem_intercalate ht
  · rw [List.mem_singleton.1 ht]
    decide
  · obtain ⟨r, hr, rfl⟩ := List.mem_map.1 hl
    rw [indent] at ht
    split_ifs at ht with hts
    · cases ht
    · obtain ht | ht := List.mem_append.1 ht
      · rw [List.eq_of_mem_replicate ht]
        decide
      · obtain ⟨m, hm, htm⟩ := mem_of_mem_place hr ht
        exact h t (mem_of_mem_lines hm htm)

/-- The layout does not depend on the contents of literals. -/
theorem map_outline_layout (w : IndentWidth) (ts : List Token) :
    (layout w ts).map outline = layout w (ts.map outline) := by
  have hindent (r : Nat × List Token) :
      (indent w r).map outline = indent w (r.1, r.2.map outline) := by
    rw [indent, indent]
    by_cases hr : r.2 = []
    · rw [if_pos hr, hr]
      rfl
    · rw [if_neg hr, if_neg fun e => hr (List.map_eq_nil_iff.1 e), List.map_append,
        List.map_replicate]
      rfl
  rw [layout, layout, map_outline_intercalate, lines_map_outline, place_map_outline, List.map_map,
    List.map_map]
  exact congrArg (List.intercalate [mark '\n']) (List.map_congr_left fun r _ => hindent r)

/-- The layout changes blank marks only. -/
theorem solid_layout (w : IndentWidth) (ts : List Token) : solid (layout w ts) = solid ts := by
  have hindent (r : Nat × List Token) : solid (indent w r) = solid r.2 := by
    have hspaces : solid (List.replicate (r.1 * w.spaces) (mark ' ')) = [] := by
      apply solid_of_isBlank
      intro t ht
      rw [List.eq_of_mem_replicate ht]
      decide
    rw [indent]
    by_cases hr : r.2 = []
    · rw [if_pos hr, hr]
    · rw [if_neg hr, solid_append, hspaces, List.nil_append]
  rw [layout, solid_intercalate (by decide), List.flatMap_map]
  simp only [hindent]
  rw [solid_place, solid_lines]

theorem values_layout (w : IndentWidth) (ts : List Token) : values (layout w ts) = values ts := by
  rw [← values_solid, solid_layout, values_solid]

/-! ## Runs without blanks -/

section

variable {run : List Token}

theorem exists_prefix_line {t : Token} (h : mark '\n' ∉ t :: run) (ts : List Token) :
    ∃ l ls, lines (t :: run ++ ts) = l :: ls ∧ t :: run <+: l := by
  induction run generalizing t with
  | nil =>
    have ht : t ≠ mark '\n' := fun e => h (e ▸ List.mem_cons_self)
    refine ⟨_, _, by rw [List.cons_append, lines, if_neg ht], ?_⟩
    exact List.cons_prefix_cons.2 ⟨rfl, List.nil_prefix⟩
  | cons u run ih =>
    obtain ⟨ht, hrun⟩ := not_or.1 fun e => h (List.mem_cons.2 e)
    obtain ⟨l, ls, hlines, hl⟩ := ih hrun
    refine ⟨t :: l, ls, ?_, List.cons_prefix_cons.2 ⟨rfl, hl⟩⟩
    rw [List.cons_append, lines, if_neg fun e => ht e.symm, hlines]
    rfl

theorem exists_infix_line (hne : run ≠ []) (hn : mark '\n' ∉ run) {ts : List Token}
    (h : run <:+: ts) : ∃ l ∈ lines ts, run <:+: l := by
  induction ts with
  | nil => exact absurd (List.infix_nil.1 h) hne
  | cons t ts ih =>
    obtain hprefix | hinfix := List.infix_cons_iff.1 h
    · obtain ⟨u, run, rfl⟩ := List.exists_cons_of_ne_nil hne
      obtain ⟨us, hus⟩ := hprefix
      obtain ⟨l, ls, hlines, hl⟩ := exists_prefix_line hn us
      rw [hus] at hlines
      exact ⟨l, hlines ▸ List.mem_cons_self, hl.isInfix⟩
    · obtain ⟨l, hl, hrun⟩ := ih hinfix
      rw [lines]
      split_ifs
      · exact ⟨l, List.mem_cons_of_mem _ hl, hrun⟩
      · obtain ⟨m, ms, hlines⟩ := List.exists_cons_of_ne_nil (List.ne_nil_of_mem hl)
        rw [hlines] at hl ⊢
        obtain rfl | hl := List.mem_cons.1 hl
        · exact ⟨t :: l, List.mem_cons_self, hrun.trans (List.suffix_cons t l).isInfix⟩
        · exact ⟨l, List.mem_cons_of_mem _ hl, hrun⟩

variable (hsolid : ∀ t ∈ run, isBlank t = false)

include hsolid

theorem infix_dropWhile (hne : run ≠ []) {ts : List Token} (h : run <:+: ts) :
    run <:+: ts.dropWhile isBlank := by
  induction ts with
  | nil => exact h
  | cons t ts ih =>
    by_cases ht : isBlank t = true
    · rw [List.dropWhile_cons_of_pos ht]
      apply ih
      obtain hprefix | hinfix := List.infix_cons_iff.1 h
      · obtain ⟨u, run, rfl⟩ := List.exists_cons_of_ne_nil hne
        have hu := hsolid u List.mem_cons_self
        rw [(List.cons_prefix_cons.1 hprefix).1, ht] at hu
        cases hu
      · exact hinfix
    · rwa [List.dropWhile_cons_of_neg ht]

theorem infix_trim (hne : run ≠ []) {ts : List Token} (h : run <:+: ts) : run <:+: trim ts := by
  have hreverse : run.reverse <:+: (ts.dropWhile isBlank).reverse.dropWhile isBlank := by
    apply infix_dropWhile
    · exact fun t ht => hsolid t (List.mem_reverse.1 ht)
    · simpa using hne
    · exact List.reverse_infix.2 (infix_dropWhile hsolid hne h)
  rw [trim, List.rdropWhile]
  rwa [← List.reverse_reverse run, List.reverse_infix]

theorem exists_infix_place (hne : run ≠ []) {ls : List (List Token)} {l : List Token}
    (hl : l ∈ ls) (h : run <:+: l) (started gap : Bool) (stack : List Layout.Opened) :
    ∃ r ∈ place started gap stack ls, run <:+: r.2 := by
  induction ls generalizing started gap stack with
  | nil => cases hl
  | cons m ls ih =>
    have hrest (hmem : l ∈ ls) (started gap : Bool) (stack : List Layout.Opened)
        (rs : List (Nat × List Token)) (hrs : ∀ r ∈ place started gap stack ls, r ∈ rs) :
        ∃ r ∈ rs, run <:+: r.2 := by
      obtain ⟨r, hr, hrun⟩ := ih hmem started gap stack
      exact ⟨r, hrs r hr, hrun⟩
    rw [place]
    obtain rfl | hmem := List.mem_cons.1 hl
    · have htrim := infix_trim hsolid hne h
      have hb : trim l ≠ [] := fun e => hne (List.infix_nil.1 (e ▸ htrim))
      rw [if_neg hb]
      split_ifs
      · exact ⟨_, List.mem_cons_of_mem _ List.mem_cons_self, htrim⟩
      · exact ⟨_, List.mem_cons_self, htrim⟩
    · split_ifs
      · exact ih hmem _ _ _
      · exact hrest hmem _ _ _ _ fun r hr => List.mem_cons_of_mem _ (List.mem_cons_of_mem _ hr)
      · exact hrest hmem _ _ _ _ fun r hr => List.mem_cons_of_mem _ hr

/-- The layout does not break up tokens among which no mark is blank. -/
theorem infix_layout {ts : List Token} (h : run <:+: ts) (w : IndentWidth) :
    run <:+: layout w ts := by
  by_cases hne : run = []
  · rw [hne]
    exact List.nil_infix
  have hn : mark '\n' ∉ run := fun hmem => absurd (hsolid _ hmem) (by decide)
  obtain ⟨l, hl, hline⟩ := exists_infix_line hne hn h
  obtain ⟨r, hr, hrow⟩ := exists_infix_place hsolid hne hl hline false false []
  have hindent : run <:+: indent w r := by
    rw [indent]
    split_ifs with hb
    · rwa [hb] at hrow
    · exact hrow.trans (List.suffix_append _ _).isInfix
  exact hindent.trans (infix_intercalate (List.mem_map_of_mem hr))

end

end SiteScript.Token
