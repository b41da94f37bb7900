import SiteScript.Proofs.Step.Tokens
import SiteScript.Site.Script

/-!
# Tokens of a site's script

The script of a site before it is laid out as a whole is a run of sections: the opening of the frame,
the helper functions, the start, the login, the visit of the start page, the steps and the closing of
the frame.  `Site.draft` are their tokens and `assemble_eq_draft` says that their text is what
`Site.assemble` answers for every site.
-/

namespace SiteScript

open Template Token

/-! ## Sections of the frame -/

namespace Site

/-- The lines before the helper functions. -/
def openingLines : List String :=
  ["var casper = require('casper').create(\x7b",
    "    pageSettings: \x7b",
    "        loadImages: false,",
    "        loadPlugins: false",
    "    \x7d",
    "\x7d);"]

/-- The lines after the steps. -/
def closingLines : List String :=
  ["casper.run(function() \x7b", "    this.exit();", "\x7d);"]

/-- Lines without slots as a template. -/
def plainLines (ls : List String) : Template :=
  .ofLines (ls.map fun l => [.text l])

/-- The line that logs in. -/
def authTemplate : Template :=
  .ofLines [[.text "casper.setHttpAuth('", .slot "user", .text "', '", .slot "pass", .text "');"]]

/-- The line that visits the start page. -/
def visitTemplate : Template :=
  .ofLines [[.text "casper.thenOpen('", .slot "url", .text "');"]]

theorem frame_eq : frame =
    plainLines openingLines ++ .ofLines [[.slot "helper_functions"]] ++
      plainLines ["casper.start();"] ++ .ofLines [[.slot "credentials"]] ++ visitTemplate ++
      .ofLines [[.slot "steps"]] ++ plainLines closingLines := rfl

theorem legible_frame : frame.Legible := by
  simp only [frame, Legible, ofLines, List.flatMap_cons, List.flatMap_nil, List.cons_append,
    List.nil_append, legible]
  repeat rw [String.toList_ofList]
  decide +kernel

theorem readsAs_opening : readsAs [.fixed "casper"] (plainLines openingLines) = true := by
  simp only [plainLines, openingLines, List.map_cons, List.map_nil, Part.fixed, readsAs, symbols,
    ofLines, List.flatMap_cons, List.flatMap_nil, List.cons_append, List.nil_append, pieceSymbols]
  repeat rw [String.toList_ofList]
  decide +kernel

theorem readsAs_helper :
    readsAs [.fixed "text", .fixed "html"] (plainLines StepType.helperLines) = true := by
  simp only [plainLines, StepType.helperLines, List.map_cons, List.map_nil, Part.fixed, readsAs, symbols,
    ofLines, List.flatMap_cons, List.flatMap_nil, List.cons_append, List.nil_append, pieceSymbols,
    String.toList_append]
  repeat rw [String.toList_ofList]
  decide +kernel

theorem readsAs_start : readsAs [] (plainLines ["casper.start();"]) = true := by
  decide +kernel

theorem readsAs_auth : readsAs [.filled "user", .filled "pass"] authTemplate = true := by
  decide +kernel

theorem readsAs_visit : readsAs [.filled "url"] visitTemplate = true := by
  decide +kernel

theorem readsAs_closing : readsAs [] (plainLines closingLines) = true := by
  decide +kernel

/-! ## Tokens -/

/-- Tokens of whole lines, or a blank line if there are none. -/
def orBlank (ts : List Token) : List Token :=
  if ts = [] then [.mark '\n'] else ts

/-- The function that selector steps call. -/
def helperTokens : List Token :=
  (plainLines StepType.helperLines).withTexts []

/-- One copy of the function for each selector step. -/
def helpersTokens (s : Site) : List Token :=
  s.steps.flatMap fun t => if t.type = .selector then helperTokens else []

/-- The line that logs in, blank without a login. -/
def loginTokens : Option Login → List Token
  | some l => authTemplate.withTexts [("user", l.user), ("pass", l.pass)]
  | none => [.mark '\n']

/-- The scripts of the steps, each with the end of its last line. -/
def stepsTokens (w : IndentWidth) (s : Site) : List Token :=
  s.steps.flatMap fun t => t.tokens w ++ [.mark '\n']

/-- The tokens of a site's script before it is laid out as a whole. -/
def draft (w : IndentWidth) (s : Site) : List Token :=
  (plainLines openingLines).withTexts [] ++ orBlank s.helpersTokens ++
    (plainLines ["casper.start();"]).withTexts [] ++ loginTokens s.login ++
    visitTemplate.withTexts [("url", s.url)] ++ orBlank (s.stepsTokens w) ++
    (plainLines closingLines).withTexts []

theorem plain_orBlank {ts : List Token} (h : ∀ t ∈ ts, t.Plain) : ∀ t ∈ orBlank ts, t.Plain := by
  rw [orBlank]
  split_ifs
  · decide
  · exact h

theorem plain_helpersTokens (s : Site) : ∀ t ∈ s.helpersTokens, t.Plain := by
  intro t ht
  obtain ⟨step, -, ht⟩ := List.mem_flatMap.1 ht
  split_ifs at ht
  · exact (block_withTexts readsAs_helper []).plain t ht
  · cases ht

theorem plain_loginTokens (l : Option Login) : ∀ t ∈ loginTokens l, t.Plain := by
  cases l with
  | none => decide
  | some l => exact (block_withTexts readsAs_auth _).plain

theorem plain_stepsTokens (w : IndentWidth) (s : Site) : ∀ t ∈ s.stepsTokens w, t.Plain := by
  intro t ht
  obtain ⟨step, -, ht⟩ := List.mem_flatMap.1 ht
  obtain ht | ht := List.mem_append.1 ht
  · exact step.plain_tokens w t ht
  · rw [List.mem_singleton.1 ht]
    decide

theorem plain_draft (w : IndentWidth) (s : Site) : ∀ t ∈ s.draft w, t.Plain := by
  simp only [draft, List.forall_mem_append]
  exact ⟨⟨⟨⟨⟨⟨(block_withTexts readsAs_opening []).plain, plain_orBlank s.plain_helpersTokens⟩,
    (block_withTexts readsAs_start []).plain⟩, plain_loginTokens s.login⟩,
    (block_withTexts readsAs_visit _).plain⟩, plain_orBlank (s.plain_stepsTokens w)⟩,
    (block_withTexts readsAs_closing []).plain⟩

/-! ## The text of a draft -/

/-- What a slot that stands alone on its line becomes. -/
theorem flatMap_chars_slot {bs : Bindings} {name value : String} (h : bs.get? name = some value) :
    (ofLines [[.slot name]]).symbols.flatMap (Symbol.chars bs) = value.toList ++ ['\n'] := by
  rw [flatMap_chars_symbols_ofLines, List.flatMap_singleton, lineChars, symbols,
    List.flatMap_singleton, pieceSymbols, List.flatMap_singleton, Symbol.chars, h]
  rfl

theorem toList_intercalate_lines {ls : List String} (h : ls ≠ []) :
    ("\n".intercalate ls).toList ++ ['\n'] = ls.flatMap fun l => l.toList ++ ['\n'] := by
  rw [String.toList_intercalate, ← List.flatMap_map (f := String.toList) (g := fun l => l ++ ['\n'])]
  exact Text.joinLines_append_newline fun e => h (List.map_eq_nil_iff.1 e)

/-- Some texts with line feeds between them and the end of the last line: blank if there are none. -/
theorem toList_intercalate_newline {α : Type} {xs : List α} {f : α → Option String}
    {g : α → List Token} (hnone : ∀ x ∈ xs, f x = none → g x = [])
    (hsome : ∀ x ∈ xs, ∀ s ∈ f x, s.toList ++ ['\n'] = text (g x)) :
    ("\n".intercalate (xs.filterMap f)).toList ++ ['\n'] = text (orBlank (xs.flatMap g)) := by
  have htext : text (xs.flatMap g) = (xs.filterMap f).flatMap fun s => s.toList ++ ['\n'] := by
    induction xs with
    | nil => rfl
    | cons x xs ih =>
      have hxs := ih (fun y hy => hnone y (List.mem_cons_of_mem x hy)) fun y hy =>
        hsome y (List.mem_cons_of_mem x hy)
      rw [List.flatMap_cons, text_append, hxs, List.filterMap_cons]
      cases hx : f x with
      | none => rw [hnone x List.mem_cons_self hx]; rfl
      | some s => rw [← hsome x List.mem_cons_self s hx]; rfl
  rw [orBlank]
  by_cases hss : xs.filterMap f = []
  · rw [hss] at htext ⊢
    rw [if_pos (text_eq_nil_iff.1 htext)]
    rfl
  · have hne : xs.flatMap g ≠ [] := by
      intro e
      rw [e] at htext
      obtain ⟨s, ss, hs⟩ := List.exists_cons_of_ne_nil hss
      rw [hs, List.flatMap_cons] at htext
      have hs : s.toList ++ ['\n'] = [] := (List.append_eq_nil_iff.1 htext.symm).1
      exact List.cons_ne_nil _ _ (List.append_eq_nil_iff.1 hs).2
    rw [if_neg hne, htext, toList_intercalate_lines hss]

theorem toList_plainLines (bs : Bindings) (ls : List String) :
    (plainLines ls).symbols.flatMap (Symbol.chars bs) =
      ls.flatMap fun l => l.toList ++ ['\n'] := by
  rw [plainLines, flatMap_chars_symbols_ofLines, List.flatMap_map]
  refine List.flatMap_congr fun l _ => congrArg (· ++ ['\n']) ?_
  rw [lineChars, symbols, List.flatMap_singleton, pieceSymbols, flatMap_chars_map_char]

theorem helper?_eq (a : Action) : a.helper? =
    if a.type = .selector then some ("\n".intercalate StepType.helperLines) else none := by
  cases a <;> rfl

/-- The tokens of lines without slots have the text of these lines. -/
theorem text_plainLines {hs : List Part} {ls : List String} (h : readsAs hs (plainLines ls) = true)
    (hfixed : ∀ p ∈ hs, ∃ s, p = .fixed s) (hne : ls ≠ []) :
    text ((plainLines ls).withTexts []) = ("\n".intercalate ls).toList ++ ['\n'] := by
  rw [toList_intercalate_lines hne, ← toList_plainLines []]
  apply text_withTexts h []
  intro p hp
  obtain ⟨s, rfl⟩ := hfixed p hp
  exact bound_fixed _ _ s

theorem text_helperTokens :
    text helperTokens = ("\n".intercalate StepType.helperLines).toList ++ ['\n'] :=
  text_plainLines readsAs_helper (by simp) (List.cons_ne_nil _ _)

/-- A text of two lines or more holds a line feed. -/
theorem intercalate_newline_ne_empty {ls : List String} (h : 1 < ls.length) :
    "\n".intercalate ls ≠ "" := by
  match ls, h with
  | l :: m :: ls, _ =>
    intro e
    have hchars := congrArg String.toList e
    rw [String.toList_intercalate] at hchars
    simp at hchars

theorem helper?_ne_empty {a : Action} {helper : String} (h : a.helper? = some helper) :
    helper ≠ "" := by
  rw [helper?_eq, Option.ite_none_right_eq_some] at h
  rw [← Option.some.inj h.2]
  exact intercalate_newline_ne_empty (by decide)

/-- No helper function is empty, so none is left out. -/
theorem helpers_eq (s : Site) : s.helpers = "\n".intercalate (s.steps.filterMap Step.helper?) := by
  rw [helpers, List.filter_eq_self.2]
  intro helper hmem
  obtain ⟨t, -, ht⟩ := List.mem_filterMap.1 hmem
  exact decide_eq_true (helper?_ne_empty ht)

theorem toList_helpers (s : Site) : s.helpers.toList ++ ['\n'] = text (orBlank s.helpersTokens) := by
  rw [helpers_eq]
  refine toList_intercalate_newline (fun t _ ht => ?_) fun t _ helper ht => ?_
  · rw [t.helper?_eq, helper?_eq, t.type_action, ite_eq_right_iff] at ht
    exact if_neg fun e => nomatch ht e
  · rw [t.helper?_eq, helper?_eq, t.type_action, Option.mem_def, Option.ite_none_right_eq_some] at ht
    obtain ⟨htype, ht⟩ := ht
    rw [← Option.some.inj ht, ← text_helperTokens]
    exact congrArg text (if_pos htype).symm

theorem toList_loginLine (l : Option Login) :
    (loginLine l).toList ++ ['\n'] = text (loginTokens l) := by
  unfold loginLine
  cases l with
  | none =>
    rw [String.toList_empty]
    rfl
  | some l =>
    let bs : Bindings := [("user", Literal.escape l.user), ("pass", Literal.escape l.pass)]
    have huser : Symbol.chars bs (.slot "user") = (Literal.escape l.user).toList := rfl
    have hpass : Symbol.chars bs (.slot "pass") = (Literal.escape l.pass).toList := rfl
    have hb : ∀ p ∈ [Part.filled "user", Part.filled "pass"],
        p.Bound bs (.ofLists [("user", l.user), ("pass", l.pass)] []) := by
      simp only [List.forall_mem_cons]
      exact ⟨bound_filled rfl, bound_filled rfl, nofun⟩
    rw [loginTokens, text_withTexts readsAs_auth _ hb, authTemplate, flatMap_chars_symbols_ofLines]
    simp only [List.flatMap_cons, List.flatMap_nil, lineChars, symbols, pieceSymbols,
      List.flatMap_append, flatMap_chars_map_char, huser, hpass]
    simp only [Literal.quote, String.toList_append]
    repeat rw [String.toList_ofList]
    simp only [List.append_assoc, List.cons_append, List.nil_append]

theorem toList_steps (w : IndentWidth) (s : Site) :
    ("\n".intercalate (s.steps.map fun t => String.ofList (text (t.tokens w)))).toList ++ ['\n'] =
      text (orBlank (s.stepsTokens w)) := by
  rw [← List.filterMap_eq_map]
  refine toList_intercalate_newline (fun t _ ht => nomatch ht) fun t _ script ht => ?_
  have hscript : String.ofList (text (t.tokens w)) = script := Option.some.inj ht
  rw [← hscript, String.toList_ofList, text_append]
  rfl

theorem mapM_script (w : IndentWidth) (s : Site) : s.steps.mapM (Step.script w) =
    .ok (s.steps.map fun t => String.ofList (text (t.tokens w))) := by
  have hscript : Step.script w = fun t => pure (String.ofList (text (t.tokens w))) :=
    funext fun t => t.script_eq_tokens w
  rw [hscript, List.mapM_pure]
  rfl

theorem render_frame (w : IndentWidth) (s : Site) {steps : String}
    (h : steps.toList ++ ['\n'] = text (orBlank (s.stepsTokens w))) :
    frame.render [("helper_functions", s.helpers), ("credentials", loginLine s.login),
      ("url", Literal.escape s.url), ("steps", steps)] = .ok (String.ofList (text (s.draft w))) := by
  have hslots : frame.tokens = ["helper_functions", "credentials", "url", "steps"] := rfl
  rw [render_eq]
  · generalize hbs : ([("helper_functions", s.helpers), ("credentials", loginLine s.login),
      ("url", Literal.escape s.url), ("steps", steps)] : Bindings) = bs
    have happend (t u : Template) : (t ++ u).symbols = t.symbols ++ u.symbols :=
      List.flatMap_append
    have hopening : _ = List.flatMap (Symbol.chars bs) _ :=
      text_withTexts readsAs_opening [] (List.forall_mem_singleton.2 (bound_fixed _ _ _))
    have hstart : _ = List.flatMap (Symbol.chars bs) _ := text_withTexts readsAs_start [] nofun
    have hvisit : _ = List.flatMap (Symbol.chars bs) _ :=
      text_withTexts readsAs_visit [("url", s.url)]
        (List.forall_mem_singleton.2 (bound_filled (by subst hbs; rfl)))
    have hclosing : _ = List.flatMap (Symbol.chars bs) _ := text_withTexts readsAs_closing [] nofun
    have hslot (name value : String) (hv : Bindings.get? bs name = some value) :
        (ofLines [[.slot name]]).symbols.flatMap (Symbol.chars bs) = value.toList ++ ['\n'] :=
      flatMap_chars_slot hv
    have hhelpers := hslot "helper_functions" _ (by subst hbs; rfl)
    have hlogin := hslot "credentials" _ (by subst hbs; rfl)
    have hsteps := hslot "steps" _ (by subst hbs; rfl)
    rw [toList_helpers] at hhelpers
    rw [toList_loginLine] at hlogin
    rw [h] at hsteps
    refine congrArg (Except.ok ∘ String.ofList) ?_
    rw [frame_eq, draft]
    simp only [happend, List.flatMap_append, text_append, ← hopening, hhelpers, ← hstart, hlogin,
      ← hvisit, hsteps, ← hclosing]
  · simp only [slot_mem_symbols_iff, hslots, List.forall_mem_cons]
    exact ⟨rfl, rfl, rfl, rfl, nofun⟩

/-- A site is always assembled, to the text of its draft. -/
theorem assemble_eq_draft (w : IndentWidth) (s : Site) :
    s.assemble w = .ok (String.ofList (text (s.draft w))) := by
  simp only [assemble, mapM_script, bind, Except.bind]
  rw [supplant_source legible_frame]
  exact render_frame w s (toList_steps w s)

end Site

end SiteScript
