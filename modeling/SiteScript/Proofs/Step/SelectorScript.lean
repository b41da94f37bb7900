import SiteScript.Proofs.Step.Extraction

/-!
# The script of a selector step

The tokens of the script of a selector step are written out (`Selector.solid_fill_parts`).  From
them come all the calls that the script makes of the two functions in which a selector stands:
one call of `evaluate`, with the container and the fields, and one call of `waitForSelector` for
each selector that is awaited.
-/

namespace SiteScript

open Template Token

namespace Selector

/-! ## Tokens -/

/-- The code in front of the calls that wait for selectors. -/
def opening : String := "casper.then(function() \x7b\n"

/-- The code between those calls and the container. -/
def calling : String :=
  "\n    this.then(function() \x7b\n        var data = this.evaluate(scrapeWithin, "

/-- The code between the list of fields and the name of the step. -/
def closing : String := ");\n        this.echo(JSON.stringify(\x7b"

/-- The code behind the name of the step. -/
def ending : String := ": data\x7d));\n    \x7d);\n\x7d);\n"

/-- The parts of the template. -/
def parts : List Part :=
  opening.toList.map Part.mark ++ .slot "waits" :: (calling.toList.map Part.mark ++
    .filled "container" :: .mark ',' :: .mark ' ' :: .slot "fields" ::
      (closing.toList.map Part.mark ++ .filled "name" :: ending.toList.map Part.mark))

theorem parts_template : StepType.selectorTemplate.parts = parts := by
  apply eq_of_beq
  simp only [StepType.selectorTemplate, Template.parts, symbols, ofLines, List.flatMap_cons,
    List.flatMap_nil, List.cons_append, List.nil_append, pieceSymbols, parts, opening, calling,
    closing, ending]
  repeat rw [String.toList_ofList]
  decide +kernel

/-- The tokens of the script, without blank marks. -/
theorem solid_fill_parts {f : Filling} {selectors : List String} {fs : List ScrapeField}
    (hwaits : f.code "waits" = waitTokens selectors) (hfields : f.code "fields" = fieldTokens fs) :
    solid (fill f parts) =
      solid (marks opening.toList) ++ (selectors.flatMap waitToken ++
        ((solid (marks calling.toList) ++ [.literal '\'' (f.content "container"), .mark ',']) ++
          (fieldTokens fs ++
            ((solid (marks closing.toList) ++ [.literal '\'' (f.content "name")]) ++
              solid (marks ending.toList))))) := by
  have hslot (name : String) : (Part.slot name).tokens f = f.code name := rfl
  have hmark (c : Char) : (Part.mark c).tokens f = [.mark c] := rfl
  have hliteral (value : String) : solid [.literal '\'' value] = [.literal '\'' value] := rfl
  have hcomma : solid [.mark ','] = [.mark ','] := rfl
  have hblank : solid [.mark ' '] = [] := rfl
  simp only [parts, fill_append, fill_cons, fill_mark, hslot, hmark, tokens_filled, hwaits, hfields,
    solid_append, solid_waitTokens, solid_fieldTokens, hliteral, hcomma, hblank, List.append_assoc]
  rfl

/-! ## The call of evaluate -/

theorem begun?_calling (container : String) :
    begun? evaluateCall (solid (marks calling.toList) ++ [.literal '\'' container, .mark ',']) =
      some ⟨[], [], [marks "scrapeWithin".toList, [.literal '\'' container]]⟩ := by
  rw [calling, evaluateCall_eq, String.toList_ofList, String.toList_ofList]
  rfl

theorem isSealed_calling (container : String) :
    isSealed evaluateCall (solid (marks calling.toList) ++ [.literal '\'' container, .mark ',']) =
      true := by
  rw [isSealed, List.getLast?_append_of_ne_nil _ (List.cons_ne_nil _ _), evaluateCall_eq]
  rfl

end Selector

/-! ## Calls that wait -/

/-- The function of a script that waits for a selector, as a call of it begins. -/
def waitCall : List Char := ".waitForSelector".toList ++ ['(']

theorem waitCall_eq : waitCall =
    ['.', 'w', 'a', 'i', 't', 'F', 'o', 'r', 'S', 'e', 'l', 'e', 'c', 't', 'o', 'r', '('] := by
  rfl

theorem waitCall_ne_nil : waitCall ≠ [] := by
  rw [waitCall_eq]
  exact List.cons_ne_nil _ _

theorem following_waitToken (s : String) (us : List Token) :
    following waitCall (waitToken s ++ us) =
      (.literal '\'' s :: .mark ')' :: .mark ';' :: us) :: following waitCall us := by
  rw [waitCall_eq, waitToken, String.toList_ofList]
  rfl

/-- Calls that wait are found in their order, each with its selector. -/
theorem filterMap_following_waitTokens (selectors : List String) (us : List Token) :
    (following waitCall (selectors.flatMap waitToken ++ us)).filterMap arguments? =
      (selectors.map fun s => [[.literal '\'' s]]) ++
        (following waitCall us).filterMap arguments? := by
  induction selectors with
  | nil => rfl
  | cons s selectors ih =>
    have hs (vs : List Token) :
        arguments? (.literal '\'' s :: .mark ')' :: .mark ';' :: vs) = some [[.literal '\'' s]] :=
      rfl
    rw [List.flatMap_cons, List.append_assoc, following_waitToken, List.filterMap_cons, hs, ih]
    rfl

namespace Selector

variable {f : Filling} {selectors : List String} {fs : List ScrapeField}
    (hwaits : f.code "waits" = waitTokens selectors) (hfields : f.code "fields" = fieldTokens fs)

include hwaits hfields

/-- The script calls `evaluate` once, with the container and the fields. -/
theorem calls_evaluate_fill : calls ".evaluate" (fill f parts) =
    [[marks "scrapeWithin".toList, [.literal '\'' (f.content "container")], fieldTokens fs]] := by
  have hopening : Quiet evaluateCall (solid (marks opening.toList)) := by
    apply quiet_of_isSealed evaluateCall_ne_nil
    all_goals
      rw [opening, evaluateCall_eq, String.toList_ofList]
      decide
  have hwaiting : Quiet evaluateCall (selectors.flatMap waitToken) := by
    rw [← solid_waitTokens]
    exact quiet_waiting selectors
  have hfieldTokens : Quiet evaluateCall (fieldTokens fs) :=
    quiet_fieldTokens evaluateCall_ne_nil (by simp [evaluateCall_eq]) fs
  have hbehind : following evaluateCall
      ((solid (marks closing.toList) ++ [.literal '\'' (f.content "name")]) ++
        solid (marks ending.toList)) = [] := by
    rw [closing, ending, evaluateCall_eq, String.toList_ofList, String.toList_ofList]
    rfl
  rw [calls, solid_fill_parts hwaits hfields, ← List.append_assoc]
  apply filterMap_following_append evaluateCall_ne_nil (hopening.append hwaiting)
    (begun?_calling (f.content "container")) (isSealed_calling _) rfl rfl hfieldTokens
    (foldlM_step_fieldTokens fs) hbehind
  rw [closing, String.toList_ofList]
  rfl

/-- The script waits for the awaited selectors, in their order, and for nothing else. -/
theorem calls_waitForSelector_fill : calls ".waitForSelector" (fill f parts) =
    selectors.map fun s => [[.literal '\'' s]] := by
  have hopening : Quiet waitCall (solid (marks opening.toList)) := by
    apply quiet_of_isSealed waitCall_ne_nil
    all_goals
      rw [opening, waitCall_eq, String.toList_ofList]
      decide
  have hcalling : Quiet waitCall (solid (marks calling.toList) ++
      [.literal '\'' (f.content "container"), .mark ',']) := by
    apply quiet_of_isSealed waitCall_ne_nil
    all_goals
      rw [calling, waitCall_eq, String.toList_ofList]
      rfl
  have hfieldTokens : Quiet waitCall (fieldTokens fs) :=
    quiet_fieldTokens waitCall_ne_nil (by simp [waitCall_eq]) fs
  have hbehind : following waitCall
      ((solid (marks closing.toList) ++ [.literal '\'' (f.content "name")]) ++
        solid (marks ending.toList)) = [] := by
    rw [closing, ending, waitCall_eq, String.toList_ofList, String.toList_ofList]
    rfl
  show (following waitCall _).filterMap arguments? = _
  rw [solid_fill_parts hwaits hfields, hopening, filterMap_following_waitTokens, hcalling,
    hfieldTokens, hbehind]
  exact List.append_nil _

end Selector

/-! ## Laid out scripts -/

namespace Step

variable {s : Step} {a : Selector} (h : s.action = .selector a) (w : IndentWidth)

include h

/-- The calls in the script of a selector step, in any width. -/
theorem calls_script_selector : ∃ script ts, s.script w = .ok script ∧
    Token.lex script.toList = some ts ∧
    calls ".evaluate" ts =
      [[marks "scrapeWithin".toList, [.literal '\'' a.container], fieldTokens a.fields]] ∧
    calls ".waitForSelector" ts = a.awaited.map fun selector => [[.literal '\'' selector]] := by
  have htokens : s.action.tokens s.name =
      fill ((Action.selector a).filling s.name) Selector.parts := by
    rw [h, Action.tokens]
    exact congrArg (fill _) Selector.parts_template
  refine ⟨_, s.tokens w, s.script_eq_tokens w, ?_, ?_, ?_⟩
  · rw [String.toList_ofList]
    exact lex_text (s.plain_tokens w)
  · rw [tokens, calls_layout, htokens]
    exact Selector.calls_evaluate_fill rfl rfl
  · rw [tokens, calls_layout, htokens]
    exact Selector.calls_waitForSelector_fill rfl rfl

end Step

end SiteScript
