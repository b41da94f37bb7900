import SiteScript.Proofs.Site.Draft
import SiteScript.Proofs.Step.Stored

/-!
# Texts of a user in a script

The script of a site depends on the texts in the site through the contents of its string literals only
(`compile_eq_outside_literals`): sites of one shape have scripts with the same tokens outside literals
and the same indentation, and the literals stand for exactly the texts that were put into them.
-/

namespace SiteScript

open Template Token

/-! ## Indentation -/

/-- The blanks that a line starts with. -/
def Text.indentation (l : List Char) : List Char :=
  l.takeWhile Text.isBlank

theorem Token.indentation_text_outline {ts : List Token} (h : ∀ t ∈ ts, t.Plain) :
    Text.indentation (text (ts.map outline)) = Text.indentation (text ts) := by
  induction ts with
  | nil => rfl
  | cons t ts ih =>
    obtain ⟨ht, hts⟩ := List.forall_mem_cons.1 h
    rw [List.map_cons, text_cons, text_cons, Text.indentation, Text.indentation]
    cases t with
    | mark c =>
      rw [outline, chars, List.singleton_append, List.singleton_append, List.takeWhile_cons,
        List.takeWhile_cons]
      split_ifs with hc
      · exact congrArg (c :: ·) (ih hts)
      · rfl
    | literal quote value =>
      have hq : ¬ Text.isBlank quote = true := not_isBlank_of_isQuote ht
      rw [outline, chars, chars, Literal.text, Literal.text]
      simp only [List.cons_append, List.takeWhile_cons_of_neg hq]

theorem Token.map_indentation_lines {ts us : List Token} (ht : ∀ t ∈ ts, t.Plain)
    (hu : ∀ u ∈ us, u.Plain) (h : ts.map outline = us.map outline) :
    (Text.lines (text ts)).map Text.indentation = (Text.lines (text us)).map Text.indentation := by
  have houtline {ts : List Token} (ht : ∀ t ∈ ts, t.Plain) :
      (Text.lines (text ts)).map Text.indentation =
        (lines (ts.map outline)).map fun l => Text.indentation (text l) := by
    rw [lines_text ht, lines_map_outline, List.map_map, List.map_map]
    apply List.map_congr_left
    intro l hl
    exact (indentation_text_outline fun t hl' => ht t (mem_of_mem_lines hl hl')).symm
  rw [houtline ht, houtline hu, h]

/-! ## Shapes of sites -/

namespace Site

/-- What a site's script depends on apart from texts. -/
structure Shape where
  hasLogin : Bool
  steps : List Action.Shape
deriving DecidableEq, Repr

/-- The shape of a site. -/
def shape (s : Site) : Shape where
  hasLogin := s.login.isSome
  steps := s.steps.map fun t => t.action.shape

/-- The texts of the literals in the script of a site, in order. -/
def literals (s : Site) : List String :=
  ["casper"] ++ (s.steps.flatMap fun t => if t.type = .selector then ["text", "html"] else []) ++
    (match s.login with
      | some l => [l.user, l.pass]
      | none => []) ++
    [s.url] ++ s.steps.flatMap fun t => t.action.literals t.name

/-! ## Tokens of sites -/

theorem map_outline_orBlank (ts : List Token) : (orBlank ts).map outline = orBlank (ts.map outline) := by
  rw [orBlank, orBlank]
  by_cases h : ts = []
  · rw [if_pos h, h]
    rfl
  · rw [if_neg h, if_neg fun e => h (List.map_eq_nil_iff.1 e)]

/-- Lists that agree element by element in `f` agree in what depends on `f`. -/
theorem flatMap_eq_of_map_eq {α β γ : Type} {f : α → β} {g : α → List γ}
    (h : ∀ x y, f x = f y → g x = g y) {xs ys : List α} (hf : xs.map f = ys.map f) :
    xs.flatMap g = ys.flatMap g := by
  induction xs generalizing ys with
  | nil => rw [List.map_eq_nil_iff.1 hf.symm]
  | cons x xs ih =>
    cases ys with
    | nil => cases hf
    | cons y ys =>
      obtain ⟨hx, hxs⟩ := List.cons.inj hf
      rw [List.flatMap_cons, List.flatMap_cons, h x y hx, ih hxs]

/-- Drafts of sites of one shape differ in the contents of literals only. -/
theorem outline_draft {a b : Site} (h : a.shape = b.shape) (w : IndentWidth) :
    (a.draft w).map outline = (b.draft w).map outline := by
  obtain ⟨hlogin, hsteps⟩ := Shape.mk.inj h
  have hhelpers : a.helpersTokens = b.helpersTokens := by
    refine flatMap_eq_of_map_eq (fun s t hst => ?_) hsteps
    have htype : s.type = t.type := by
      rw [← s.type_action, ← t.type_action, ← Action.type_shape, hst, Action.type_shape]
    rw [htype]
  have hauth : (loginTokens a.login).map outline = (loginTokens b.login).map outline := by
    cases ha : a.login with
    | none =>
      cases hb : b.login with
      | none => rfl
      | some l => rw [ha, hb] at hlogin; cases hlogin
    | some l =>
      cases hb : b.login with
      | none => rw [ha, hb] at hlogin; cases hlogin
      | some m => exact map_outline_withTexts _ _ authTemplate
  have hscripts : (a.stepsTokens w).map outline = (b.stepsTokens w).map outline := by
    rw [stepsTokens, stepsTokens, List.map_flatMap, List.map_flatMap]
    refine flatMap_eq_of_map_eq (fun s t hst => ?_) hsteps
    rw [List.map_append, List.map_append, Step.outline_tokens hst w]
  simp only [draft, List.map_append, map_outline_orBlank, hhelpers, hauth, hscripts,
    map_outline_withTexts [("url", a.url)] [("url", b.url)]]

theorem values_orBlank (ts : List Token) : values (orBlank ts) = values ts := by
  rw [orBlank]
  split_ifs with h
  · rw [h]
    rfl
  · rfl

theorem values_flatMap {α : Type} (xs : List α) (g : α → List Token) :
    values (xs.flatMap g) = xs.flatMap fun x => values (g x) := by
  induction xs with
  | nil => rfl
  | cons x xs ih => rw [List.flatMap_cons, List.flatMap_cons, values_append, ih]

theorem values_draft (w : IndentWidth) (s : Site) : values (s.draft w) = s.literals := by
  have hhelpers : values s.helpersTokens =
      s.steps.flatMap fun t => if t.type = .selector then ["text", "html"] else [] := by
    have hhelper : values helperTokens = ["text", "html"] := by
      rw [helperTokens, values_withTexts readsAs_helper]
      simp only [List.flatMap_cons, List.flatMap_nil, values_fixed]
      rfl
    rw [helpersTokens, values_flatMap]
    apply List.flatMap_congr
    intro t _
    split_ifs
    · exact hhelper
    · rfl
  have hlogin : values (loginTokens s.login) =
      match s.login with
      | some l => [l.user, l.pass]
      | none => [] := by
    cases s.login with
    | none => rfl
    | some l =>
      rw [loginTokens, values_withTexts readsAs_auth]
      simp only [List.flatMap_cons, List.flatMap_nil, values_filled]
      rfl
  have hsteps : values (s.stepsTokens w) = s.steps.flatMap fun t => t.action.literals t.name := by
    rw [stepsTokens, values_flatMap]
    apply List.flatMap_congr
    intro t _
    rw [values_append, Step.values_tokens]
    exact List.append_nil _
  simp only [draft, values_append, values_orBlank, hhelpers, hlogin, hsteps,
    values_withTexts readsAs_opening, values_withTexts readsAs_start, values_withTexts readsAs_visit,
    values_withTexts readsAs_closing, List.flatMap_cons, List.flatMap_nil, values_fixed, values_filled,
    List.append_nil]
  rfl

/-! ## Scripts of sites -/

/-- The tokens of a site's script. -/
def tokens (w : IndentWidth) (s : Site) : List Token :=
  Token.layout w (s.draft w)

theorem compile_eq_tokens (w : IndentWidth) (s : Site) :
    s.compile w = .ok (String.ofList (text (s.tokens w))) := by
  rw [compile, assemble_eq_draft, tokens, ← layout_text (s.plain_draft w) w]
  rfl

theorem plain_tokens (w : IndentWidth) (s : Site) : ∀ t ∈ s.tokens w, t.Plain :=
  plain_layout (s.plain_draft w) w

theorem outline_tokens {a b : Site} (h : a.shape = b.shape) (w : IndentWidth) :
    (a.tokens w).map outline = (b.tokens w).map outline := by
  rw [tokens, tokens, map_outline_layout, map_outline_layout, outline_draft h w]

theorem values_tokens (w : IndentWidth) (s : Site) : values (s.tokens w) = s.literals := by
  rw [tokens, values_layout, values_draft]

/-- The script of a site ends its lines with line feeds and has no other line terminator. -/
theorem ne_terminator_of_mem_text (w : IndentWidth) (s : Site) :
    ∀ c ∈ text (s.tokens w), c ≠ '\r' ∧ c ≠ '\u2028' ∧ c ≠ '\u2029' := by
  intro c hc
  obtain rfl | hc := terminator_of_mem_text (s.plain_tokens w) c hc
  · decide
  · refine ⟨?_, ?_, ?_⟩ <;> rintro rfl <;> cases hc

/-- Sites of one shape have scripts that differ in the contents of string literals only.  Both scripts
are taken apart into tokens; the tokens are the same but for these contents, the lines have the same
indentation, and there is no line terminator besides line feeds.  The literals stand, one for each slot,
for exactly the texts that were put into them. -/
theorem compile_eq_outside_literals {a b : Site} (h : a.shape = b.shape) (w : IndentWidth) :
    ∃ x y ts us,
      a.compile w = .ok x ∧ b.compile w = .ok y ∧
      Token.lex x.toList = some ts ∧ Token.lex y.toList = some us ∧
      ts.map Token.outline = us.map Token.outline ∧
      (Text.lines x.toList).length = (Text.lines y.toList).length ∧
      (Text.lines x.toList).map Text.indentation = (Text.lines y.toList).map Text.indentation ∧
      (∀ c ∈ x.toList, c ≠ '\r' ∧ c ≠ '\u2028' ∧ c ≠ '\u2029') ∧
      (∀ c ∈ y.toList, c ≠ '\r' ∧ c ≠ '\u2028' ∧ c ≠ '\u2029') ∧
      Token.values ts = a.literals ∧ Token.values us = b.literals := by
  have hlines := map_indentation_lines (a.plain_tokens w) (b.plain_tokens w) (outline_tokens h w)
  refine ⟨_, _, a.tokens w, b.tokens w, a.compile_eq_tokens w, b.compile_eq_tokens w, ?_⟩
  rw [String.toList_ofList, String.toList_ofList]
  refine ⟨lex_text (a.plain_tokens w), lex_text (b.plain_tokens w), outline_tokens h w, ?_, hlines,
    a.ne_terminator_of_mem_text w, b.ne_terminator_of_mem_text w, a.values_tokens w, b.values_tokens w⟩
  simpa only [List.length_map] using congrArg List.length hlines

/-- A site with ordinary texts. -/
def tame : Site where
  name := "shop"
  url := "https://shop.example/"
  login := some ⟨"ann", "secret", by decide, by decide⟩
  steps :=
    [.ofAction "open" (.click ⟨"#open"⟩) (by decide),
      .ofAction "read" (.selector ⟨some false, "", [⟨"title", "h1", "text"⟩]⟩) (by decide)]
  named := by decide
  located := by decide
  settled := List.forall_mem_cons.2 ⟨Step.settled_ofAction ⟨rfl, rfl⟩,
    List.forall_mem_singleton.2 (Step.settled_ofAction ⟨rfl, rfl⟩)⟩

/-- A site of the same shape whose texts try to leave their literals. -/
def hostile : Site where
  name := "shop"
  url := "'); casper.exit(); //"
  login := some ⟨"\\", "\\'\n\x7b\x7burl\x7d\x7d", by decide, by decide⟩
  steps :=
    [.ofAction "\x7d" (.click ⟨"\u2028\x7b('"⟩) (by decide),
      .ofAction "'\r\n'" (.selector ⟨some false, "", [⟨"\"\u2029", "h1\\\"]", "/*"⟩]⟩) (by decide)]
  named := by decide
  located := by decide
  settled := List.forall_mem_cons.2 ⟨Step.settled_ofAction ⟨rfl, rfl⟩,
    List.forall_mem_singleton.2 (Step.settled_ofAction ⟨rfl, rfl⟩)⟩

theorem compile_hostile_eq_tame :
    tame.shape = hostile.shape ∧ ∃ x y ts us,
      tame.compile .two = .ok x ∧ hostile.compile .two = .ok y ∧
      Token.lex x.toList = some ts ∧ Token.lex y.toList = some us ∧
      ts.map Token.outline = us.map Token.outline ∧
      (Text.lines x.toList).length = (Text.lines y.toList).length ∧
      (Text.lines x.toList).map Text.indentation = (Text.lines y.toList).map Text.indentation ∧
      (∀ c ∈ x.toList, c ≠ '\r' ∧ c ≠ '\u2028' ∧ c ≠ '\u2029') ∧
      (∀ c ∈ y.toList, c ≠ '\r' ∧ c ≠ '\u2028' ∧ c ≠ '\u2029') ∧
      Token.values ts = tame.literals ∧ Token.values us =
        ["casper", "text", "html", "\\", "\\'\n\x7b\x7burl\x7d\x7d", "'); casper.exit(); //",
          "\u2028\x7b('", "\u2028\x7b('", "h1\\\"]", "", "name", "\"\u2029", "key", "h1\\\"]",
          "attribute", "/*", "'\r\n'"] :=
  ⟨rfl, compile_eq_outside_literals (a := tame) (b := hostile) rfl .two⟩

end Site

end SiteScript
