import Mathlib.Data.List.DropRight
import SiteScript.Text.Blank
import SiteScript.Text.Lines

/-!
# Lines and blanks

Laws of `Text.lines`, `Text.joinLines` and `Text.trim`.  A text of whole lines is taken apart into
exactly these lines (`lines_joinLines`, `lines_append_newline`), any text can be cut behind a line feed
(`lines_append_feed`), and trimming a line a second time, or after it has been indented, changes
nothing (`trim_trim`, `trim_append_of_blank`).
-/

namespace SiteScript.Text

/-! ## Lines -/

/-- A line holds no line feed and does not end with a carriage return, which would be taken for a
part of the line's end. -/
def IsLine (l : List Char) : Prop := '\n' ∉ l ∧ l.getLast? ≠ some '\r'

theorem isLine_nil : IsLine [] := ⟨by simp, by simp⟩

theorem IsLine.tail {c : Char} {l : List Char} (h : IsLine (c :: l)) : IsLine l := by
  refine ⟨fun hn => h.1 (List.mem_cons_of_mem _ hn), fun hr => h.2 ?_⟩
  cases l with
  | nil => simp at hr
  | cons d l => rwa [List.getLast?_cons_cons]

theorem IsLine.head_ne {c : Char} {l : List Char} (h : IsLine (c :: l)) : c ≠ '\n' :=
  fun e => h.1 (e ▸ List.mem_cons_self)

/-- A character that ends no line goes to the front of the first line after it. -/
theorem lines_cons {c : Char} {cs : List Char} (hn : c ≠ '\n') (hr : c = '\r' → cs.head? ≠ some '\n') :
    lines (c :: cs) = (c :: (lines cs).headD []) :: (lines cs).tail := by
  rw [lines]
  · cases lines cs <;> rfl
  · exact hn
  · intro cs' hc h
    exact hr hc (by rw [h]; rfl)

theorem lines_append_newline {l : List Char} (h : IsLine l) (rest : List Char) :
    lines (l ++ '\n' :: rest) = l :: lines rest := by
  induction l with
  | nil => rfl
  | cons c l ih =>
    rw [List.cons_append, lines_cons h.head_ne, ih h.tail]
    · rfl
    · rintro rfl
      cases l with
      | nil => exact absurd rfl h.2
      | cons d l => simpa using h.tail.head_ne

theorem lines_of_not_mem {l : List Char} (hne : l ≠ []) (h : '\n' ∉ l) : lines l = [l] := by
  induction l with
  | nil => exact absurd rfl hne
  | cons c l ih =>
    have hl : '\n' ∉ l := fun hn => h (List.mem_cons_of_mem _ hn)
    rw [lines_cons fun e => h (e ▸ List.mem_cons_self)]
    · cases l with
      | nil => rfl
      | cons d l => rw [ih (by simp) hl]; rfl
    · intro _ hd
      exact hl (List.mem_of_head? hd)

theorem newline_not_mem_lines (cs : List Char) : ∀ l ∈ lines cs, '\n' ∉ l := by
  fun_induction lines cs with
  | case1 => exact List.forall_mem_nil _
  | case2 cs ih | case3 cs ih => exact List.forall_mem_cons.2 ⟨List.not_mem_nil, ih⟩
  | case4 c cs hn hr hlines ih =>
    exact List.forall_mem_singleton.2 fun h => hn (List.mem_singleton.1 h).symm
  | case5 c cs hn hr m ms hlines ih =>
    rw [hlines, List.forall_mem_cons] at ih
    refine List.forall_mem_cons.2 ⟨fun h => ?_, ih.2⟩
    obtain h | h := List.mem_cons.1 h
    · exact hn h.symm
    · exact ih.1 h

theorem lines_ne_nil {cs : List Char} (h : cs ≠ []) : lines cs ≠ [] := by
  fun_cases lines cs with
  | case1 => exact absurd rfl h
  | case2 | case3 | case4 | case5 => exact List.cons_ne_nil _ _

/-- A text can be cut behind any of its line feeds. -/
theorem lines_append_feed (as bs : List Char) :
    lines (as ++ '\n' :: bs) = lines (as ++ ['\n']) ++ lines bs := by
  induction as with
  | nil => rfl
  | cons c as ih =>
    by_cases hn : c = '\n'
    · subst hn
      exact congrArg ([] :: ·) ih
    by_cases hr : c = '\r' → (as ++ ['\n']).head? ≠ some '\n'
    · have hhead : (as ++ '\n' :: bs).head? = (as ++ ['\n']).head? := by cases as <;> rfl
      have hne : lines (as ++ ['\n']) ≠ [] :=
        lines_ne_nil (List.append_ne_nil_of_right_ne_nil _ (List.cons_ne_nil _ _))
      obtain ⟨l, ls, hl⟩ := List.exists_cons_of_ne_nil hne
      rw [List.cons_append, lines_cons hn (by rwa [hhead]), ih, List.cons_append, lines_cons hn hr, hl]
      rfl
    · -- A carriage return goes with the line feed behind it.
      obtain ⟨rfl, hhead⟩ := Classical.not_imp.1 hr
      cases as with
      | nil => rfl
      | cons d as =>
        obtain rfl : d = '\n' := by simpa using hhead
        exact ih

theorem lines_append_return_feed {l : List Char} (h : '\n' ∉ l) : lines (l ++ ['\r', '\n']) = [l] := by
  induction l with
  | nil => rfl
  | cons c l ih =>
    obtain ⟨hc, hl⟩ := not_or.1 fun e => h (List.mem_cons.2 e)
    rw [List.cons_append, lines_cons (fun e => hc e.symm), ih hl]
    · rfl
    · rintro -
      cases l with
      | nil => decide
      | cons d l => exact fun e => hl (List.mem_cons.2 (.inl (Option.some.inj e).symm))

/-! ## Joined lines -/

theorem joinLines_cons (l : List Char) {ls : List (List Char)} (h : ls ≠ []) :
    joinLines (l :: ls) = l ++ '\n' :: joinLines ls := by
  rw [joinLines, List.intercalate_cons_of_ne_nil h, List.append_assoc, List.singleton_append]
  rfl

theorem joinLines_append_newline {ls : List (List Char)} (h : ls ≠ []) :
    joinLines ls ++ ['\n'] = ls.flatMap fun l => l ++ ['\n'] := by
  induction ls with
  | nil => exact absurd rfl h
  | cons l ls ih =>
    by_cases hls : ls = []
    · rw [hls, List.flatMap_singleton]
      exact congrArg (· ++ ['\n']) List.intercalate_singleton
    · rw [joinLines_cons l hls, List.append_assoc, List.cons_append, ih hls, List.flatMap_cons,
        List.append_assoc]
      rfl

theorem joinLines_append {as bs : List (List Char)} (ha : as ≠ []) (hb : bs ≠ []) :
    joinLines (as ++ bs) = joinLines as ++ '\n' :: joinLines bs := by
  induction as with
  | nil => exact absurd rfl ha
  | cons a as ih =>
    rcases eq_or_ne as [] with rfl | hne
    · rw [List.singleton_append, joinLines_cons a hb]
      simp [joinLines]
    · rw [List.cons_append, joinLines_cons a (by simp [hne]), ih hne, joinLines_cons a hne,
        List.append_assoc, List.cons_append]

/-- Joining groups of lines first and the joined groups afterwards is the same as joining all. -/
theorem joinLines_flatten {gs : List (List (List Char))} (h : ∀ g ∈ gs, g ≠ []) :
    joinLines gs.flatten = joinLines (gs.map joinLines) := by
  induction gs with
  | nil => rfl
  | cons g gs ih =>
    have hgs : ∀ g ∈ gs, g ≠ [] := fun g' hg' => h g' (List.mem_cons_of_mem _ hg')
    rcases eq_or_ne gs [] with rfl | hne
    · simp [joinLines]
    · have hflat : gs.flatten ≠ [] := by
        obtain ⟨g', hg'⟩ := List.exists_mem_of_ne_nil gs hne
        rw [Ne, List.flatten_eq_nil_iff]
        exact fun hall => hgs g' hg' (hall g' hg')
      rw [List.flatten_cons, joinLines_append (h g List.mem_cons_self) hflat, ih hgs, List.map_cons,
        joinLines_cons _ (by simpa using hne)]

theorem lines_joinLines_append_newline {ls : List (List Char)} (hne : ls ≠ [])
    (h : ∀ l ∈ ls, IsLine l) (rest : List Char) :
    lines (joinLines ls ++ '\n' :: rest) = ls ++ lines rest := by
  induction ls with
  | nil => exact absurd rfl hne
  | cons l ls ih =>
    have hl := h l List.mem_cons_self
    have hls : ∀ l ∈ ls, IsLine l := fun l' hl' => h l' (List.mem_cons_of_mem _ hl')
    rcases eq_or_ne ls [] with rfl | hne'
    · simpa [joinLines] using lines_append_newline hl rest
    · rw [joinLines_cons l hne', List.append_assoc, List.cons_append, lines_append_newline hl,
        ih hne' hls, List.cons_append]

/-- Joined lines are taken apart again, unless the last one is empty and gets lost. -/
theorem lines_joinLines {ls : List (List Char)} (h : ∀ l ∈ ls, IsLine l)
    (hlast : ls.getLast? ≠ some []) : lines (joinLines ls) = ls := by
  rcases List.eq_nil_or_concat ls with rfl | ⟨as, l, rfl⟩
  · rfl
  rw [List.concat_eq_append] at h hlast ⊢
  have hl : l ≠ [] := fun e => hlast (by simp [e])
  have hline : IsLine l := h l (by simp)
  rcases eq_or_ne as [] with rfl | hne
  · simpa [joinLines] using lines_of_not_mem hl hline.1
  · rw [joinLines_append hne (by simp),
      lines_joinLines_append_newline hne fun a ha => h a (by simp [ha])]
    simpa [joinLines] using lines_of_not_mem hl hline.1

/-- A line between others is a line of the joined text, whatever line feeds the others hold. -/
theorem mem_lines_joinLines {as bs : List (List Char)} {l : List Char} (h : IsLine l) (ha : as ≠ [])
    (hb : bs ≠ []) : l ∈ lines (joinLines (as ++ l :: bs)) := by
  rw [joinLines_append ha (List.cons_ne_nil l bs), joinLines_cons l hb, lines_append_feed,
    lines_append_newline h]
  exact List.mem_append_right _ List.mem_cons_self

/-! ## Trimming -/

theorem trimEnd_eq_rdropWhile (cs : List Char) : trimEnd cs = cs.rdropWhile isBlank := rfl

theorem trim_prefix_trimStart (cs : List Char) : trim cs <+: trimStart cs :=
  List.rdropWhile_prefix _ _

theorem trim_sublist (cs : List Char) : (trim cs).Sublist cs :=
  (trim_prefix_trimStart cs).sublist.trans (List.dropWhile_sublist _)

theorem trim_append_of_blank {pad : List Char} (h : ∀ c ∈ pad, isBlank c = true) (cs : List Char) :
    trim (pad ++ cs) = trim cs := by
  rw [trim, trimStart, List.dropWhile_append_of_pos h]
  rfl

theorem trim_append_blank {c : Char} (h : isBlank c = true) (cs : List Char) :
    trim (cs ++ [c]) = trim cs := by
  rw [trim, trimStart, List.dropWhile_append]
  split_ifs with hnil
  · rw [List.dropWhile_cons_of_pos h, List.dropWhile_nil, trim, trimStart, List.isEmpty_iff.1 hnil]
  · rw [trimEnd_eq_rdropWhile, List.rdropWhile_concat_pos _ _ _ h]
    rfl

theorem trim_append_of_blank_end {pad : List Char} (h : ∀ c ∈ pad, isBlank c = true)
    (cs : List Char) : trim (cs ++ pad) = trim cs := by
  induction pad using List.reverseRecOn with
  | nil => rw [List.append_nil]
  | append_singleton pad c ih =>
    obtain ⟨hpad, hc⟩ := List.forall_mem_append.1 h
    rw [← List.append_assoc, trim_append_blank (hc c (List.mem_singleton_self c)), ih hpad]

theorem trim_of_not_blank {cs : List Char} (h : ∀ c ∈ cs, isBlank c = false) : trim cs = cs := by
  have hstart : trimStart cs = cs := List.dropWhile_eq_self_iff.2 fun hl => by simp [h]
  rw [trim, hstart, trimEnd_eq_rdropWhile, List.rdropWhile_eq_self_iff]
  exact fun hl => by simp [h]

/-- A text is its trimmed text between blanks. -/
theorem exists_blank_append_trim (cs : List Char) :
    ∃ before after, (∀ c ∈ before, isBlank c = true) ∧ (∀ c ∈ after, isBlank c = true) ∧
      cs = before ++ (trim cs ++ after) := by
  refine ⟨cs.takeWhile isBlank, (trimStart cs).rtakeWhile isBlank,
    fun c hc => List.mem_takeWhile_imp hc, fun c hc => List.mem_rtakeWhile_imp hc, ?_⟩
  rw [trim, trimEnd_eq_rdropWhile, List.rdropWhile_append_rtakeWhile, trimStart,
    List.takeWhile_append_dropWhile]

theorem isBlank_head_trimStart {c : Char} {cs ds : List Char} (h : trimStart cs = c :: ds) :
    isBlank c = false := by
  rw [trimStart] at h
  have hhead := List.head_dropWhile_not (p := isBlank) (l := cs) (by rw [h]; simp)
  simpa only [h, List.head_cons] using hhead

theorem trimStart_trim (cs : List Char) : trimStart (trim cs) = trim cs := by
  rcases h : trim cs with _ | ⟨c, ds⟩
  · rfl
  · obtain ⟨rest, hrest⟩ := trim_prefix_trimStart cs
    rw [h] at hrest
    have hc : isBlank c = false := isBlank_head_trimStart hrest.symm
    exact List.dropWhile_cons_of_neg (by simp [hc])

theorem trimEnd_trim (cs : List Char) : trimEnd (trim cs) = trim cs :=
  List.rdropWhile_idempotent _ _

theorem trim_trim (cs : List Char) : trim (trim cs) = trim cs := by
  rw [trim, trimStart_trim, trimEnd_trim]

/-- A trimmed line of a text is a line again, since carriage returns are blank. -/
theorem isLine_trim {cs : List Char} (h : '\n' ∉ cs) : IsLine (trim cs) := by
  refine ⟨fun hn => h ((trim_sublist cs).subset hn), ?_⟩
  intro hr
  have hne : (trimStart cs).rdropWhile isBlank ≠ [] := by
    intro e
    rw [trim, trimEnd_eq_rdropWhile, e] at hr
    cases hr
  have hlast : (trim cs).getLast? = some (((trimStart cs).rdropWhile isBlank).getLast hne) :=
    List.getLast?_eq_getLast_of_ne_nil hne
  have hblank := List.rdropWhile_last_not isBlank _ hne
  rw [hlast, Option.some.injEq] at hr
  rw [hr] at hblank
  exact hblank (by decide)

/-- A line feed at the end of a text adds a blank line or none. -/
theorem exists_lines_feed (cs : List Char) :
    ∃ gap, (∀ l ∈ gap, trim l = []) ∧ (lines (cs ++ ['\n'])).map trim = (lines cs ++ gap).map trim := by
  by_cases hn : '\n' ∈ cs
  · obtain ⟨as, bs, hcs, -⟩ := List.eq_append_cons_of_mem hn
    have hlength : bs.length < cs.length := by
      rw [hcs, List.length_append, List.length_cons]
      omega
    obtain ⟨gap, hblank, hgap⟩ := exists_lines_feed bs
    refine ⟨gap, hblank, ?_⟩
    rw [hcs, List.append_assoc, List.cons_append, lines_append_feed, lines_append_feed as bs,
      List.map_append, hgap, ← List.map_append, List.append_assoc]
  · rcases List.eq_nil_or_concat cs with rfl | ⟨l, c, rfl⟩
    · exact ⟨[[]], List.forall_mem_singleton.2 rfl, rfl⟩
    · refine ⟨[], List.forall_mem_nil _, ?_⟩
      rw [List.concat_eq_append] at hn ⊢
      rw [List.append_nil, lines_of_not_mem (by simp) hn]
      by_cases hc : c = '\r'
      · have hl : '\n' ∉ l := fun e => hn (List.mem_append_left _ e)
        rw [hc, List.append_assoc, List.singleton_append, lines_append_return_feed hl,
          List.map_singleton, List.map_singleton, trim_append_blank (by decide)]
      · have hline : IsLine (l ++ [c]) := ⟨hn, by simpa using hc⟩
        rw [lines_append_newline hline]
        rfl
termination_by cs.length

end SiteScript.Text
