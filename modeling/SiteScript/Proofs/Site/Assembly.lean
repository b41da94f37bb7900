import SiteScript.Proofs.Site.Draft

/-!
# The parts of a script

Compilation never fails, and the script of a site is the run of its parts, each laid out on its own
(`compile_eq_reference`): laying out the whole changes none of them, because every part closes what it
opens and has no blank line at its ends.
-/

namespace SiteScript.Site

open Template Token Layout

/-! ## The reference -/

/-- Some texts, or one empty line if there are none. -/
def orEmpty (ss : List String) : List String :=
  if ss = [] then [""] else ss

/-- The line that logs in, empty without a login. -/
def authLine : Option Login → String
  | some l =>
    "casper.setHttpAuth('" ++ Literal.escape l.user ++ "', '" ++ Literal.escape l.pass ++ "');"
  | none => ""

/-- The line that visits the start page. -/
def visitLine (url : String) : String :=
  "casper.thenOpen('" ++ Literal.escape url ++ "');"

/-- The parts of a script, given the scripts of the steps. -/
def reference (w : IndentWidth) (s : Site) (scripts : List String) : List String :=
  [layout w ("\n".intercalate openingLines)] ++
    orEmpty ((s.steps.filter fun t => t.type = .selector).map fun _ =>
      layout w ("\n".intercalate StepType.helperLines)) ++
    ["casper.start();", authLine s.login, visitLine s.url] ++ orEmpty scripts ++
    [layout w ("\n".intercalate closingLines)]

/-! ## Texts and rows -/

/-- The lines of some rows. -/
def rowsText (w : IndentWidth) (rs : List Row) : List Char :=
  Text.joinLines (rs.map (Row.chars w))

/-- Texts that are written by groups of rows, each text by one group. -/
structure Shows (w : IndentWidth) (ss : List String) (gs : List (List Row)) : Prop where
  texts : ss.map String.toList = gs.map (rowsText w)
  ne_nil : ∀ g ∈ gs, g ≠ []

theorem Shows.append {w : IndentWidth} {ss ts : List String} {gs hs : List (List Row)}
    (h : Shows w ss gs) (h' : Shows w ts hs) : Shows w (ss ++ ts) (gs ++ hs) :=
  ⟨by rw [List.map_append, List.map_append, h.texts, h'.texts],
    List.forall_mem_append.2 ⟨h.ne_nil, h'.ne_nil⟩⟩

theorem shows_singleton {w : IndentWidth} {s : String} {g : List Row}
    (h : s.toList = rowsText w g) (hg : g ≠ []) : Shows w [s] [g] :=
  ⟨congrArg ([·]) h, List.forall_mem_singleton.2 hg⟩

theorem shows_map {α : Type} {w : IndentWidth} {f : α → String} {g : α → List Row}
    (h : ∀ x, (f x).toList = rowsText w (g x)) (hg : ∀ x, g x ≠ []) (xs : List α) :
    Shows w (xs.map f) (xs.map g) := by
  refine ⟨?_, fun rs hrs => ?_⟩
  · rw [List.map_map, List.map_map]
    exact List.map_congr_left fun x _ => h x
  · obtain ⟨x, -, rfl⟩ := List.mem_map.1 hrs
    exact hg x

/-- Groups of rows, or a blank row if there are none. -/
def orBlankRow (gs : List (List Row)) : List (List Row) :=
  if gs = [] then [[.blank]] else gs

theorem shows_empty (w : IndentWidth) : Shows w [""] [[.blank]] :=
  shows_singleton (by rw [String.toList_empty]; rfl) (List.cons_ne_nil _ _)

theorem Shows.orEmpty {w : IndentWidth} {ss : List String} {gs : List (List Row)}
    (h : Shows w ss gs) : Shows w (orEmpty ss) (orBlankRow gs) := by
  rw [Site.orEmpty, orBlankRow]
  by_cases hss : ss = []
  · have hgs : gs = [] := List.map_eq_nil_iff.1 (h.texts.symm.trans (by rw [hss]; rfl))
    rw [if_pos hss, if_pos hgs]
    exact shows_empty w
  · have hgs : gs ≠ [] := fun e => hss (List.map_eq_nil_iff.1 (h.texts.trans (by rw [e]; rfl)))
    rw [if_neg hss, if_neg hgs]
    exact h

theorem Shows.intercalate {w : IndentWidth} {ss : List String} {gs : List (List Row)}
    (h : Shows w ss gs) : "\n".intercalate ss = String.ofList (rowsText w gs.flatten) := by
  have hne : ∀ g ∈ gs.map (List.map (Row.chars w)), g ≠ [] := by
    intro g hg
    obtain ⟨rows, hrows, rfl⟩ := List.mem_map.1 hg
    exact fun e => h.ne_nil rows hrows (List.map_eq_nil_iff.1 e)
  have hjoin : Text.joinLines (gs.map (rowsText w)) = rowsText w gs.flatten := by
    rw [rowsText, List.map_flatten, Text.joinLines_flatten hne, List.map_map]
    rfl
  apply String.toList_inj.1
  rw [String.toList_intercalate, h.texts]
  exact hjoin.trans String.toList_ofList.symm

/-! ## The rows of the sections -/

theorem arrange_orBlank {α : Type} {xs : List α} {g : α → List Token} {rows : α → List Row}
    (hg : ∀ x ∈ xs, g x ≠ [])
    (h : ∀ x ∈ xs, ∀ us, arrange .ready (g x ++ us) = rows x ++ arrange .ready us)
    {b : List Token} (hb : Block b) (us : List Token) :
    arrange .ready (orBlank (xs.flatMap g) ++ (b ++ us)) =
      (orBlankRow (xs.map rows)).flatten ++ (arrange .initial b ++ arrange .ready us) := by
  have hrun (us : List Token) : arrange .ready (xs.flatMap g ++ us) =
      (xs.map rows).flatten ++ arrange .ready us := by
    clear hg
    induction xs with
    | nil => rfl
    | cons x xs ih =>
      obtain ⟨hx, hxs⟩ := List.forall_mem_cons.1 h
      rw [List.flatMap_cons, List.append_assoc, hx, ih hxs, List.map_cons, List.flatten_cons,
        List.append_assoc]
  rw [orBlank, orBlankRow]
  cases xs with
  | nil => exact hb.blank_append us
  | cons x xs =>
    have hne : (x :: xs).flatMap g ≠ [] := fun e =>
      hg x List.mem_cons_self (List.append_eq_nil_iff.1 (List.flatMap_cons.symm.trans e)).1
    have hrows : (x :: xs).map rows ≠ [] := List.cons_ne_nil _ _
    rw [if_neg hne, hrun, if_neg hrows, hb.ready_append]

/-- The rows of a helper function. -/
def helperRows : List Row :=
  arrange .initial helperTokens

/-- The rows of the line that logs in. -/
def loginRows : Option Login → List Row
  | some l => arrange .initial (loginTokens (some l))
  | none => [.blank]

/-- The rows of the script of a step. -/
def stepRows (t : Step) : List Row :=
  arrange .initial (t.action.tokens t.name)

/-- The rows of a script, part by part. -/
def groups (s : Site) : List (List Row) :=
  [arrange .initial ((plainLines openingLines).withTexts [])] ++
    orBlankRow ((s.steps.filter fun t => t.type = .selector).map fun _ => helperRows) ++
    [arrange .initial ((plainLines ["casper.start();"]).withTexts []), loginRows s.login,
      arrange .initial (visitTemplate.withTexts [("url", s.url)])] ++
    orBlankRow (s.steps.map stepRows) ++
    [arrange .initial ((plainLines closingLines).withTexts [])]

theorem helpersTokens_eq (s : Site) : s.helpersTokens =
    (s.steps.filter fun t => t.type = .selector).flatMap fun _ => helperTokens := by
  rw [helpersTokens]
  induction s.steps with
  | nil => rw [List.flatMap_nil, List.filter_nil, List.flatMap_nil]
  | cons t ts ih =>
    rw [List.flatMap_cons, List.filter_cons, ih]
    by_cases ht : t.type = .selector
    · rw [if_pos ht, if_pos (decide_eq_true ht)]
      rfl
    · rw [if_neg ht, if_neg (by simpa using ht)]
      rfl

theorem arrange_login (l : Option Login) {b : List Token} (hb : Block b) (us : List Token) :
    arrange .ready (loginTokens l ++ (b ++ us)) =
      loginRows l ++ (arrange .initial b ++ arrange .ready us) := by
  cases l with
  | none => exact hb.blank_append us
  | some l => rw [loginTokens, (block_withTexts readsAs_auth _).ready_append, hb.ready_append]; rfl

/-- The rows of a draft are those of its parts. -/
theorem arrange_draft (w : IndentWidth) (s : Site) :
    arrange .initial (s.draft w) = s.groups.flatten := by
  have hopening : Block ((plainLines openingLines).withTexts []) := block_withTexts readsAs_opening []
  have hstart : Block ((plainLines ["casper.start();"]).withTexts []) :=
    block_withTexts readsAs_start []
  have hvisit : Block (visitTemplate.withTexts [("url", s.url)]) := block_withTexts readsAs_visit _
  have hclosing : Block ((plainLines closingLines).withTexts []) := block_withTexts readsAs_closing []
  have hhelper : Block helperTokens := block_withTexts readsAs_helper []
  have hhelpers (us : List Token) : arrange .ready (orBlank s.helpersTokens ++
      ((plainLines ["casper.start();"]).withTexts [] ++ us)) =
        (orBlankRow ((s.steps.filter fun t => t.type = .selector).map fun _ => helperRows)).flatten ++
          (arrange .initial ((plainLines ["casper.start();"]).withTexts []) ++ arrange .ready us) := by
    rw [helpersTokens_eq]
    exact arrange_orBlank (fun _ _ => hhelper.ne_nil) (fun _ _ => hhelper.ready_append) hstart us
  have hsteps (us : List Token) : arrange .ready (orBlank (s.stepsTokens w) ++
      ((plainLines closingLines).withTexts [] ++ us)) =
        (orBlankRow (s.steps.map stepRows)).flatten ++
          (arrange .initial ((plainLines closingLines).withTexts []) ++ arrange .ready us) := by
    refine arrange_orBlank (fun t _ => List.append_ne_nil_of_right_ne_nil _ (List.cons_ne_nil _ _))
      (fun t _ us => ?_) hclosing us
    rw [List.append_assoc, List.singleton_append]
    exact (t.action.block_tokens t.name).layout_append w us
  have hend : arrange .ready [] = [] := rfl
  rw [draft, groups]
  simp only [List.append_assoc]
  rw [hopening.initial_append, hhelpers, arrange_login s.login hvisit,
    ← List.append_nil ((plainLines closingLines).withTexts []), hsteps, hend]
  simp only [List.flatten_append, List.flatten_cons, List.flatten_nil, List.append_assoc,
    List.append_nil]

/-! ## The texts of the sections -/

theorem newline_not_mem_quote (s : String) : '\n' ∉ (Literal.quote s).toList := by
  intro h
  rw [Literal.toList_quote] at h
  exact absurd (Literal.isTerminator_of_mem_text (.inl rfl) h) (by decide)

theorem authLine_some (l : Login) : authLine (some l) =
    "casper.setHttpAuth(" ++ Literal.quote l.user ++ ", " ++ Literal.quote l.pass ++ ");" := by
  unfold authLine
  apply String.toList_inj.1
  simp only [Literal.quote, String.toList_append]
  repeat rw [String.toList_ofList]
  simp only [List.append_assoc, List.cons_append, List.nil_append]

theorem authLine_eq (l : Option Login) : authLine l = loginLine l := by
  cases l with
  | none => rfl
  | some l => exact authLine_some l

theorem newline_not_mem_authLine (l : Login) : '\n' ∉ (authLine (some l)).toList := by
  rw [authLine_some]
  simp only [String.toList_append, List.mem_append, not_or]
  exact ⟨⟨⟨⟨by decide, newline_not_mem_quote _⟩, by decide⟩, newline_not_mem_quote _⟩, by decide⟩

theorem visitLine_eq (url : String) :
    visitLine url = "casper.thenOpen(" ++ Literal.quote url ++ ");" := by
  unfold visitLine
  apply String.toList_inj.1
  simp only [Literal.quote, String.toList_append]
  repeat rw [String.toList_ofList]
  simp only [List.append_assoc, List.cons_append, List.nil_append]

theorem newline_not_mem_visitLine (url : String) : '\n' ∉ (visitLine url).toList := by
  rw [visitLine_eq]
  simp only [String.toList_append, List.mem_append, not_or]
  exact ⟨⟨by decide, newline_not_mem_quote _⟩, by decide⟩

theorem toList_visitLine (url : String) :
    (visitLine url).toList ++ ['\n'] = text (visitTemplate.withTexts [("url", url)]) := by
  let bs : Bindings := [("url", Literal.escape url)]
  have hurl : Symbol.chars bs (.slot "url") = (Literal.escape url).toList := rfl
  have hb : ∀ p ∈ [Part.filled "url"], p.Bound bs (.ofLists [("url", url)] []) :=
    List.forall_mem_singleton.2 (bound_filled rfl)
  rw [text_withTexts readsAs_visit _ hb, visitTemplate, flatMap_chars_symbols_ofLines]
  simp only [List.flatMap_cons, List.flatMap_nil, lineChars, symbols, pieceSymbols,
    List.flatMap_append, flatMap_chars_map_char, hurl]
  unfold visitLine
  simp only [String.toList_append]
  repeat rw [String.toList_ofList]
  simp only [List.append_assoc, List.cons_append, List.nil_append]

theorem shows_lines {w : IndentWidth} {hs : List Part} {ls : List String}
    (h : readsAs hs (plainLines ls) = true) (hfixed : ∀ p ∈ hs, ∃ s, p = .fixed s) (hne : ls ≠ []) :
    Shows w [layout w ("\n".intercalate ls)] [arrange .initial ((plainLines ls).withTexts [])] :=
  shows_singleton ((block_withTexts h []).toList_layout (text_plainLines h hfixed hne).symm w)
    (block_withTexts h []).arrange_ne_nil

theorem shows_helpers (w : IndentWidth) (ts : List Step) :
    Shows w (ts.map fun _ => layout w ("\n".intercalate StepType.helperLines))
      (ts.map fun _ => helperRows) := by
  have hhelper : Block helperTokens := block_withTexts readsAs_helper []
  exact shows_map (fun _ => hhelper.toList_layout text_helperTokens.symm w)
    (fun _ => hhelper.arrange_ne_nil) ts

theorem shows_start (w : IndentWidth) :
    Shows w ["casper.start();"] [arrange .initial ((plainLines ["casper.start();"]).withTexts [])] := by
  have hstart : Block ((plainLines ["casper.start();"]).withTexts []) :=
    block_withTexts readsAs_start []
  have htext := text_plainLines readsAs_start nofun (List.cons_ne_nil _ _)
  rw [String.intercalate_singleton] at htext
  exact shows_singleton (hstart.toList_line htext.symm (by decide) w) hstart.arrange_ne_nil

theorem shows_login (w : IndentWidth) (l : Option Login) :
    Shows w [authLine l] [loginRows l] := by
  cases l with
  | none => exact shows_empty w
  | some l =>
    have hauth : Block (loginTokens (some l)) := block_withTexts readsAs_auth _
    have htext := toList_loginLine (some l)
    rw [← authLine_eq] at htext
    exact shows_singleton (hauth.toList_line htext (newline_not_mem_authLine l) w)
      hauth.arrange_ne_nil

theorem shows_visit (w : IndentWidth) (url : String) :
    Shows w [visitLine url] [arrange .initial (visitTemplate.withTexts [("url", url)])] := by
  have hvisit : Block (visitTemplate.withTexts [("url", url)]) := block_withTexts readsAs_visit _
  exact shows_singleton (hvisit.toList_line (toList_visitLine url) (newline_not_mem_visitLine url) w)
    hvisit.arrange_ne_nil

theorem shows_steps (w : IndentWidth) (ts : List Step) :
    Shows w (ts.map fun t => String.ofList (text (t.tokens w))) (ts.map stepRows) := by
  refine shows_map (fun t => ?_) (fun t => (t.action.block_tokens t.name).arrange_ne_nil) ts
  rw [String.toList_ofList, Step.tokens, Token.layout, text_intercalate,
    map_text_indent (t.action.block_tokens t.name).plain]
  rfl

/-! ## The script of a site -/

/-- The script of a site is its parts line by line. -/
theorem compile_eq_intercalate (w : IndentWidth) (s : Site) : s.compile w = .ok ("\n".intercalate
    (s.reference w (s.steps.map fun t => String.ofList (text (t.tokens w))))) := by
  have hshows : Shows w
      (s.reference w (s.steps.map fun t => String.ofList (text (t.tokens w)))) s.groups :=
    (((shows_lines readsAs_opening (by simp) (List.cons_ne_nil _ _)).append
      (shows_helpers w _).orEmpty).append
      (((shows_start w).append (shows_login w s.login)).append (shows_visit w s.url))).append
      (shows_steps w s.steps).orEmpty |>.append
      (shows_lines readsAs_closing nofun (List.cons_ne_nil _ _))
  rw [hshows.intercalate, ← arrange_draft w, compile, assemble_eq_draft]
  refine congrArg Except.ok ?_
  rw [Layout.layout, String.toList_ofList, rows, lines_text (s.plain_draft w)]
  rfl

/-- A site is always compiled, and its script is its parts line by line: the opening, the helper
functions, the start, the login, the visit, the scripts of the steps as they are on their own, and the
closing. -/
theorem compile_eq_reference (w : IndentWidth) (s : Site) :
    ∃ scripts, s.steps.mapM (Step.script w) = .ok scripts ∧
      s.compile w = .ok ("\n".intercalate (s.reference w scripts)) :=
  ⟨_, mapM_script w s, compile_eq_intercalate w s⟩

end SiteScript.Site
