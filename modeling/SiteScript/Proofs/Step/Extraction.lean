import SiteScript.Proofs.Script.Call
import SiteScript.Proofs.Step.Tokens

/-!
# What a script extracts

The script of a scrape or selector step calls `evaluate` once, and of what it passes one argument is
an array: the list of the fields (`Step.evaluatedArrays_script`).  That the templates make no other
call is checked on what they are without slots and contents of literals (`Template.extracts`).  In
the slots stand the calls that wait for selectors and the list of fields; neither calls `evaluate`,
however long it is (`quiet_waiting`, `quiet_fieldTokens`).
-/

namespace SiteScript

open Token

/-- The function of a page that a script calls to extract values, as a call of it begins. -/
def evaluateCall : List Char := ".evaluate".toList ++ ['(']

theorem evaluateCall_eq :
    evaluateCall = ['.', 'e', 'v', 'a', 'l', 'u', 'a', 't', 'e', '('] := by
  rfl

theorem evaluateCall_ne_nil : evaluateCall ≠ [] := by
  rw [evaluateCall_eq]
  exact List.cons_ne_nil _ _

/-! ## The lists in the slots -/

theorem isBlank_of_mem_waitToken (s : String) : ∀ t ∈ waitToken s, isBlank t = false := by
  rw [waitToken, String.toList_ofList, List.forall_mem_append]
  refine ⟨by decide, ?_⟩
  simp only [List.forall_mem_cons]
  exact ⟨rfl, by decide, by decide, List.forall_mem_nil _⟩

theorem solid_waitTokens (selectors : List String) :
    solid (waitTokens selectors) = selectors.flatMap waitToken := by
  rw [waitTokens, solid_intercalate (by decide), List.flatMap_map]
  exact List.flatMap_congr fun s _ => solid_of_not_isBlank (isBlank_of_mem_waitToken s)

/-- A call that waits for a selector is quiet if it is for a blank selector. -/
theorem quiet_waitToken {cs : List Char} (hcs : cs ≠ []) (hend : ';' ∉ cs)
    (hblank : following cs (waitToken "") = []) (s : String) : Quiet cs (waitToken s) := by
  have hnone : following cs (waitToken s) = [] := by
    rw [← List.map_eq_nil_iff (f := List.map outline), ← following_map_outline, outline_waitToken s "",
      following_map_outline, hblank]
    rfl
  refine quiet_of_isSealed hcs hnone ?_
  rw [isSealed, waitToken, List.getLast?_append_of_ne_nil _ (List.cons_ne_nil _ _)]
  refine decide_eq_true fun hmem => ?_
  obtain ⟨c, hc, ⟨⟩⟩ := List.mem_map.1 hmem
  exact hend hc

theorem quiet_waitTokens {cs : List Char} (hcs : cs ≠ []) (hend : ';' ∉ cs)
    (hblank : following cs (waitToken "") = []) (selectors : List String) :
    Quiet cs (solid (waitTokens selectors)) := by
  rw [solid_waitTokens]
  induction selectors with
  | nil => exact fun _ => rfl
  | cons s selectors ih =>
    rw [List.flatMap_cons]
    exact (quiet_waitToken hcs hend hblank s).append ih

/-- A call that waits for a selector does not extract anything. -/
theorem quiet_waiting (selectors : List String) :
    Quiet evaluateCall (solid (waitTokens selectors)) := by
  refine quiet_waitTokens evaluateCall_ne_nil (by simp [evaluateCall_eq]) ?_ selectors
  rw [waitToken, evaluateCall_eq, String.toList_ofList]
  decide

/-- The tokens within a field are no brackets. -/
theorem bracket_of_mem_memberTokens {key value : String} :
    ∀ t ∈ memberTokens key value, ∀ opened, bracket opened t = opened := by
  simp only [memberTokens, List.forall_mem_cons]
  exact ⟨fun _ => rfl, fun _ => rfl, fun _ => rfl, List.forall_mem_nil _⟩

theorem enclosed_comma : Enclosed [.mark ','] :=
  enclosed_of_bracket (List.forall_mem_singleton.2 fun _ => rfl)

theorem ScrapeField.enclosed_tokens (f : ScrapeField) : Enclosed f.tokens := by
  refine enclosed_bracketed rfl rfl (enclosed_intercalate enclosed_comma ?_)
  simp only [List.forall_mem_cons]
  exact ⟨enclosed_of_bracket bracket_of_mem_memberTokens,
    enclosed_of_bracket bracket_of_mem_memberTokens,
    enclosed_of_bracket bracket_of_mem_memberTokens, List.forall_mem_nil _⟩

/-- The list of fields stands within one argument of a call. -/
theorem foldlM_step_fieldTokens (fs : List ScrapeField) (c : Call) :
    (fieldTokens fs).foldlM Call.step c =
      .ok ⟨c.opened, c.argument ++ fieldTokens fs, c.arguments⟩ := by
  refine foldlM_step_bracketed rfl rfl (enclosed_intercalate enclosed_comma ?_) c
  intro l hl
  obtain ⟨f, -, rfl⟩ := List.mem_map.1 hl
  exact f.enclosed_tokens

theorem isBlank_of_mem_fieldTokens (fs : List ScrapeField) :
    ∀ t ∈ fieldTokens fs, isBlank t = false := by
  refine forall_mem_fieldTokens (fun _ => rfl) ?_ fs
  simp only [List.forall_mem_cons]
  exact ⟨rfl, rfl, rfl, rfl, rfl, rfl, List.forall_mem_nil _⟩

theorem solid_fieldTokens (fs : List ScrapeField) : solid (fieldTokens fs) = fieldTokens fs :=
  solid_of_not_isBlank (isBlank_of_mem_fieldTokens fs)

/-- The list of fields calls nothing whose name holds no mark of the list. -/
theorem quiet_fieldTokens {cs : List Char} (hcs : cs ≠ [])
    (h : ∀ c ∈ ['[', ']', '\x7b', '\x7d', ',', ':'], c ∉ cs) (fs : List ScrapeField) :
    Quiet cs (fieldTokens fs) := by
  apply quiet_of_not_mem hcs
  refine forall_mem_fieldTokens (fun value => by simp [marks]) (fun c hc hmem => ?_) fs
  obtain ⟨_, hcs, ⟨⟩⟩ := List.mem_map.1 hmem
  exact h c hc hcs

end SiteScript

/-! ## The call in a template -/

namespace SiteScript.Template

open Token

/-- The tokens of parts of a template, without blank marks and contents of literals. -/
def skeleton (ps : List Part) : List Token :=
  solid ((fill (.ofLists [] []) ps).map outline)

/-- Whether a part is a slot in the code. -/
def Part.isSlot : Part → Bool
  | slot _ => true
  | _ => false

/-- Without slots in the code the tokens of parts are the same but for the contents of literals. -/
theorem map_outline_solid_fill {ps : List Part} (h : ∀ p ∈ ps, p.isSlot = false) (f : Filling) :
    (solid (fill f ps)).map outline = skeleton ps := by
  rw [← solid_map_outline, skeleton, fill, fill, List.map_flatMap, List.map_flatMap]
  refine congrArg solid (List.flatMap_congr fun p hp => ?_)
  cases p with
  | mark c => rfl
  | literal content => rfl
  | slot name => cases h _ hp

/-- Whether parts begin a call of `evaluate` and stop where its last argument is due, with no array
among the arguments before it. -/
def beginsCall (ps : List Part) : Bool :=
  (begun? evaluateCall (skeleton ps)).any fun c =>
    c.opened == [] && c.argument == [] && !c.arguments.any isArray

/-- Whether parts hold no call of `evaluate`. -/
def callsNothing (ps : List Part) : Bool :=
  following evaluateCall (skeleton ps) == []

/-- Whether parts end with a token that is not within the name of a call. -/
def endsName (ps : List Part) : Bool :=
  isSealed evaluateCall (skeleton ps)

/-- Whether a template that waits for selectors calls `evaluate` once, with the list of fields for
the last argument and no other array. -/
def extracts (t : Template) : Bool :=
  let start := t.parts.takeWhile (· ≠ .slot "waits")
  let call := (t.parts.drop (start.length + 1)).takeWhile (· ≠ .slot "fields")
  let behind := t.parts.drop (start.length + call.length + 2)
  t.parts == start ++ .slot "waits" :: (call ++ .slot "fields" :: behind) &&
    (start ++ (call ++ behind)).all (fun p => !p.isSlot) &&
    (callsNothing start && endsName start) && (beginsCall call && endsName call) &&
    (callsNothing behind && (skeleton behind).head? == some (.mark ')'))

section

variable {ps : List Part} (h : ∀ p ∈ ps, p.isSlot = false) (f : Filling)

include h

theorem isSealed_fill (cs : List Char) :
    isSealed cs (solid (fill f ps)) = isSealed cs (skeleton ps) := by
  rw [← map_outline_solid_fill h f, isSealed_map_outline]

theorem following_fill_eq_nil_iff (cs : List Char) :
    following cs (solid (fill f ps)) = [] ↔ following cs (skeleton ps) = [] := by
  rw [← map_outline_solid_fill h f, following_map_outline, List.map_eq_nil_iff]

/-- Without slots in the code the contents of literals do not matter for what parts hold. -/
theorem quiet_fill_of_skeleton {cs : List Char} (hcs : cs ≠ []) (hnone : following cs (skeleton ps) = [])
    (hend : isSealed cs (skeleton ps) = true) : Quiet cs (solid (fill f ps)) :=
  quiet_of_isSealed hcs ((following_fill_eq_nil_iff h f cs).2 hnone) ((isSealed_fill h f cs).trans hend)

theorem exists_call_of_beginsCall (hps : beginsCall ps = true) :
    ∃ c, begun? evaluateCall (solid (fill f ps)) = some c ∧ c.opened = [] ∧ c.argument = [] ∧
      c.arguments.any isArray = false := by
  obtain ⟨d, hd, hc⟩ := (Option.any_eq_true _ _).1 hps
  rw [← map_outline_solid_fill h f, begun?_map_outline] at hd
  obtain ⟨c, hbegun, rfl⟩ := Option.map_eq_some_iff.1 hd
  simp only [Call.outline, Bool.and_eq_true, beq_iff_eq, List.map_eq_nil_iff, Bool.not_eq_true',
    List.any_map, Function.comp_def, isArray_map_outline] at hc
  exact ⟨c, hbegun, hc.1.1, hc.1.2, hc.2⟩

end

/-- Such a template calls `evaluate` once, and of the arguments the list of fields alone is an
array. -/
theorem calls_fill {t : Template} (h : extracts t = true) {f : Filling} {selectors : List String}
    {fs : List ScrapeField} (hwaits : f.code "waits" = waitTokens selectors)
    (hfields : f.code "fields" = fieldTokens fs) :
    ∃ arguments, calls ".evaluate" (fill f t.parts) = [arguments ++ [fieldTokens fs]] ∧
      arguments.any isArray = false := by
  unfold extracts at h
  extract_lets start call behind at h
  simp only [Bool.and_eq_true, beq_iff_eq] at h
  obtain ⟨⟨⟨⟨hparts, hslots⟩, hnone, hend⟩, hcall, hcallEnd⟩, hbehind, hclose⟩ := h
  simp only [List.all_eq_true, List.forall_mem_append, Bool.not_eq_true'] at hslots
  obtain ⟨hstart, hmiddle, hlast⟩ := hslots
  obtain ⟨c, hbegun, hopened, hargument, harrays⟩ := exists_call_of_beginsCall hmiddle f hcall
  have hsolid : solid (fill f t.parts) = (solid (fill f start) ++ solid (waitTokens selectors)) ++
      (solid (fill f call) ++ (fieldTokens fs ++ solid (fill f behind))) := by
    rw [hparts, fill, List.flatMap_append, List.flatMap_cons, List.flatMap_append,
      List.flatMap_cons, Part.tokens, Part.tokens, hwaits, hfields]
    simp only [solid_append, solid_fieldTokens, List.append_assoc]
    rfl
  have hhead : (solid (fill f behind)).head? = some (.mark ')') := by
    rw [← map_outline_solid_fill hlast f, List.head?_map] at hclose
    obtain ⟨u, hu, he⟩ := Option.map_eq_some_iff.1 hclose
    rw [hu, outline_eq_mark_iff.1 he]
  have hopening := quiet_fill_of_skeleton hstart f evaluateCall_ne_nil (eq_of_beq hnone) hend
  refine ⟨c.arguments, ?_, harrays⟩
  rw [calls, hsolid]
  exact filterMap_following_append evaluateCall_ne_nil (hopening.append (quiet_waiting selectors))
    hbegun ((isSealed_fill hmiddle f _).trans hcallEnd) hopened hargument
    (quiet_fieldTokens evaluateCall_ne_nil (by simp [evaluateCall_eq]) fs)
    (foldlM_step_fieldTokens fs) ((following_fill_eq_nil_iff hlast f _).2 (eq_of_beq hbehind)) hhead

end SiteScript.Template

/-! ## The call in the script of a step -/

namespace SiteScript

open Template Token

/-- Whether a step of a type takes values from the page. -/
def StepType.isExtracting : StepType → Bool
  | scrape | selector => true
  | click | select | form | formSelector => false

/-- The fields whose values an action takes from the page. -/
def Action.extracted : Action → List ScrapeField
  | scrape a => a.fields
  | selector a => a.fields
  | click _ | select _ | form _ | formSelector _ => []

/-- The arrays that a script passes to `evaluate`; `none` if it cannot be taken apart. -/
def evaluatedArrays (script : String) : Option (List String) :=
  (Token.lex script.toList).map fun ts =>
    ((calls ".evaluate" ts).flatten.filter isArray).map fun array => String.ofList (text array)

theorem StepType.extracts_template {t : StepType} (h : t.isExtracting = true) :
    extracts t.template = true := by
  cases t with
  | scrape | selector =>
    simp only [template, scrapeTemplate, selectorTemplate, extracts, callsNothing, beginsCall,
      endsName, parts, symbols, ofLines, List.flatMap_cons, List.flatMap_nil, List.cons_append,
      List.nil_append, pieceSymbols, evaluateCall_eq]
    repeat rw [String.toList_ofList]
    decide +kernel
  | click | select | form | formSelector => cases h

namespace Action

variable {a : Action} (h : a.type.isExtracting = true) (step : String)

include h

theorem calls_tokens :
    ∃ arguments, calls ".evaluate" (a.tokens step) = [arguments ++ [fieldTokens a.extracted]] ∧
      arguments.any isArray = false := by
  have hextracts := StepType.extracts_template h
  cases a with
  | scrape a => exact calls_fill hextracts rfl rfl
  | selector a => exact calls_fill hextracts rfl rfl
  | _ => cases h

theorem infix_tokens : fieldTokens a.extracted <:+: a.tokens step := by
  obtain ⟨-, -, hholes⟩ := read_of_readsAs (StepType.readsAs_template a.type)
  have hslot : Part.slot "fields" ∈ a.type.template.parts := by
    apply List.mem_of_mem_filter
    rw [← holes, hholes]
    cases a with
    | scrape a => simp [type, StepType.holes]
    | selector a => simp [type, StepType.holes]
    | _ => cases h
  have hcode : (a.filling step).code "fields" = fieldTokens a.extracted := by
    cases a with
    | scrape a => rfl
    | selector a => rfl
    | _ => cases h
  obtain ⟨ps, qs, hparts⟩ := List.append_of_mem hslot
  rw [tokens, hparts, fill, List.flatMap_append, List.flatMap_cons, Part.tokens, hcode]
  exact ⟨_, _, List.append_assoc _ _ _⟩

end Action

namespace Step

variable {s : Step} (h : s.type.isExtracting = true) (w : IndentWidth)

include h

/-- The script of a scrape or selector step passes one array to `evaluate`, the list of its fields,
which stands in the script as it is. -/
theorem evaluatedArrays_script : ∃ script, s.script w = .ok script ∧
    evaluatedArrays script = some [ScrapeField.literal s.action.extracted] ∧
    (ScrapeField.literal s.action.extracted).toList <:+: script.toList := by
  have haction : s.action.type.isExtracting = true := by rwa [s.type_action]
  refine ⟨_, s.script_eq_tokens w, ?_, ?_⟩
  · obtain ⟨arguments, hcalls, hothers⟩ := Action.calls_tokens haction s.name
    have hnone : arguments.filter isArray = [] := by
      rw [List.filter_eq_nil_iff]
      exact fun argument hmem => by simpa using List.any_eq_false.1 hothers argument hmem
    have harray : isArray (fieldTokens s.action.extracted) = true := rfl
    rw [evaluatedArrays, String.toList_ofList, lex_text (s.plain_tokens w), Option.map_some, tokens,
      calls_layout, hcalls, List.flatten_singleton, List.filter_append, hnone,
      List.filter_cons_of_pos harray, List.filter_nil, List.nil_append, List.map_singleton,
      ← toList_literal, String.ofList_toList]
  · rw [String.toList_ofList, toList_literal]
    have hinfix : fieldTokens s.action.extracted <:+: s.tokens w :=
      infix_layout (isBlank_of_mem_fieldTokens _) (Action.infix_tokens haction s.name) w
    obtain ⟨before, after, htokens⟩ := hinfix
    rw [← htokens, text_append, text_append]
    exact ⟨_, _, rfl⟩

end Step

end SiteScript
