import SiteScript.Proofs.Site.Assembly
import SiteScript.Proofs.Site.Isolation
import SiteScript.Proofs.Step.Extraction

/-!
# The login of a script

A script logs in by a call of `setHttpAuth` on a line of its own.  A site with a login has this call
once, with the user and the password as literals, and a site without one has no such call: neither the
templates (`Template.isSilent`) nor what stands in their slots holds it, whatever texts a user puts
into literals (`Action.quiet_tokens`).
-/

namespace SiteScript.Template

open Token

/-! ## Templates without a call -/

/-- Whether some characters cannot stand at the head of parts in the code, whatever is in the slots:
another token comes in between before the first slot. -/
def misses : List Char → List Part → Bool
  | c :: cs, .mark d :: ps =>
    if isBlank (.mark d) then misses (c :: cs) ps else d ≠ c || misses cs ps
  | _ :: _, .literal _ :: _ => true
  | _, _ => false

/-- Whether some characters stand nowhere in parts unless they do in what is in the slots. -/
def isSilent (cs : List Char) : List Part → Bool
  | [] => true
  | .slot _ :: ps => isSilent cs ps
  | .mark d :: ps => (isBlank (.mark d) || misses cs (.mark d :: ps)) && isSilent cs ps
  | .literal content :: ps => misses cs (.literal content :: ps) && isSilent cs ps

section

variable {cs : List Char} {f : Filling}

theorem behind?_of_misses {ps : List Part} (h : misses cs ps = true) (us : List Token) :
    behind? cs (solid (fill f ps) ++ us) = none := by
  fun_induction misses cs ps with
  | case1 c cs d ps hd ih =>
    have hblank : solid [.mark d] = [] := solid_of_isBlank (List.forall_mem_singleton.2 hd)
    have hfill : solid (fill f (.mark d :: ps)) = solid (fill f ps) := by
      rw [fill_cons, Part.tokens, solid_append, hblank, List.nil_append]
    rw [hfill, ih h]
  | case2 c cs d ps hd ih =>
    have hmark : solid [.mark d] = [.mark d] :=
      solid_of_not_isBlank (List.forall_mem_singleton.2 (Bool.eq_false_iff.2 hd))
    rw [fill_cons, Part.tokens, solid_append, hmark, List.singleton_append, List.cons_append, behind?]
    by_cases hc : d = c
    · rw [if_pos (congrArg Token.mark hc)]
      exact ih (by simpa [hc] using h)
    · rw [if_neg fun e => hc (Token.mark.inj e)]
  | case3 c cs content ps => rfl
  | case4 => cases h

/-- Parts are quiet if they are silent and what is in their slots is quiet. -/
theorem quiet_fill (hcode : ∀ name, Quiet cs (solid (f.code name))) {ps : List Part}
    (h : isSilent cs ps = true) : Quiet cs (solid (fill f ps)) := by
  have hnext {p : Part} {ps : List Part} {t : Token} (htoken : p.tokens f = [t])
      (hmisses : isBlank t = false → misses cs (p :: ps) = true)
      (hps : Quiet cs (solid (fill f ps))) : Quiet cs (solid (fill f (p :: ps))) := by
    intro us
    rw [fill_cons, htoken, solid_append]
    cases hblank : isBlank t with
    | true =>
      rw [solid_of_isBlank (List.forall_mem_singleton.2 hblank)]
      exact hps us
    | false =>
      have hsolid : solid [t] = [t] :=
        solid_of_not_isBlank (List.forall_mem_singleton.2 hblank)
      have hnone := behind?_of_misses (f := f) (hmisses hblank) us
      rw [fill_cons, htoken, solid_append, hsolid] at hnone
      rw [hsolid, List.append_assoc, List.singleton_append, following_cons]
      rw [List.append_assoc, List.singleton_append] at hnone
      rw [hnone]
      exact hps us
  fun_induction isSilent cs ps with
  | case1 => exact fun _ => rfl
  | case2 name ps ih =>
    rw [fill_cons, solid_append]
    exact (hcode name).append (ih h)
  | case3 d ps ih =>
    rw [Bool.and_eq_true, Bool.or_eq_true] at h
    exact hnext rfl (fun hd => h.1.resolve_left (Bool.eq_false_iff.1 hd)) (ih h.2)
  | case4 content ps ih =>
    rw [Bool.and_eq_true] at h
    exact hnext rfl (fun _ => h.1) (ih h.2)

theorem quiet_withTexts {t : Template} (h : isSilent cs t.parts = true)
    (contents : List (String × String)) : Quiet cs (solid (t.withTexts contents)) :=
  quiet_fill (fun _ _ => rfl) h

end

end SiteScript.Template

namespace SiteScript

open Template Token

/-! ## The scripts of steps -/

/-- The function that logs in, as a call of it begins. -/
def authCall : List Char := ".setHttpAuth".toList ++ ['(']

theorem authCall_eq :
    authCall = ['.', 's', 'e', 't', 'H', 't', 't', 'p', 'A', 'u', 't', 'h', '('] := by
  rfl

theorem authCall_ne_nil : authCall ≠ [] := by
  rw [authCall_eq]
  exact List.cons_ne_nil _ _

/-- A call of a method begins with a dot. -/
theorem Token.quiet_of_head_not_mem {c : Char} {cs : List Char} {ts : List Token}
    (h : .mark c ∉ ts) : Quiet (c :: cs) ts := by
  intro us
  induction ts with
  | nil => rfl
  | cons t ts ih =>
    obtain ⟨ht, hts⟩ := not_or.1 fun e => h (List.mem_cons.2 e)
    rw [List.cons_append, following_cons, behind?, if_neg fun e => ht e.symm]
    exact ih hts

theorem quiet_of_dot_not_mem {ts : List Token} (h : .mark '.' ∉ ts) : Quiet authCall (solid ts) := by
  rw [authCall_eq]
  exact quiet_of_head_not_mem fun hmem => h (List.mem_of_mem_filter hmem)

theorem dot_not_mem_entryTokens (fs : List FormField) : .mark '.' ∉ entryTokens fs := by
  intro h
  obtain h | ⟨l, hl, h⟩ := mem_intercalate h
  · exact absurd h (by decide)
  · obtain ⟨f, -, rfl⟩ := List.mem_map.1 hl
    simp [FormField.tokens] at h

theorem dot_not_mem_fieldTokens (fs : List ScrapeField) : .mark '.' ∉ fieldTokens fs := by
  refine fun h => forall_mem_fieldTokens (P := fun t => t ≠ .mark '.') (fun _ => ?_) ?_ fs _ h rfl
  · exact fun e => nomatch e
  · simp

theorem quiet_awaiting (selectors : List String) : Quiet authCall (solid (waitTokens selectors)) := by
  refine quiet_waitTokens authCall_ne_nil (by simp [authCall_eq]) ?_ selectors
  rw [waitToken, authCall_eq, String.toList_ofList]
  decide

theorem StepType.isSilent_template (t : StepType) : isSilent authCall t.template.parts = true := by
  cases t
  all_goals
    simp only [template, clickTemplate, selectTemplate, formTemplate, formSelectorTemplate,
      scrapeTemplate, selectorTemplate, parts, symbols, ofLines, List.flatMap_cons, List.flatMap_nil,
      List.cons_append, List.nil_append, pieceSymbols, authCall_eq]
    repeat rw [String.toList_ofList]
    decide +kernel

namespace Action

theorem quiet_codes (a : Action) : ∀ c ∈ a.codes, Quiet authCall (solid c.2) := by
  have hflag (b : Bool) : Quiet authCall (solid (flagTokens b)) :=
    quiet_of_dot_not_mem (by cases b <;> decide)
  cases a with
  | click a => exact List.forall_mem_nil _
  | select a => exact List.forall_mem_nil _
  | form a =>
    simp only [codes, List.forall_mem_cons]
    exact ⟨quiet_of_dot_not_mem (dot_not_mem_entryTokens _), hflag _, List.forall_mem_nil _⟩
  | formSelector a =>
    simp only [codes, List.forall_mem_cons]
    exact ⟨quiet_of_dot_not_mem (dot_not_mem_entryTokens _), hflag _, List.forall_mem_nil _⟩
  | scrape a =>
    simp only [codes, List.forall_mem_cons]
    exact ⟨quiet_awaiting _, quiet_of_dot_not_mem (dot_not_mem_fieldTokens _), List.forall_mem_nil _⟩
  | selector a =>
    simp only [codes, List.forall_mem_cons]
    exact ⟨quiet_awaiting _, quiet_of_dot_not_mem (dot_not_mem_fieldTokens _), List.forall_mem_nil _⟩

/-- The script of an action does not log in. -/
theorem quiet_tokens (step : String) (a : Action) : Quiet authCall (solid (a.tokens step)) := by
  refine quiet_fill (fun name => ?_) (StepType.isSilent_template a.type)
  exact Filling.forall_code (P := fun ts => Quiet authCall (solid ts)) (fun _ => rfl) a.quiet_codes name

end Action

/-! ## The script of a site -/

namespace Site

theorem isSilent_opening : isSilent authCall (plainLines openingLines).parts = true := by
  simp only [plainLines, openingLines, List.map_cons, List.map_nil, parts, symbols, ofLines,
    List.flatMap_cons, List.flatMap_nil, List.cons_append, List.nil_append, pieceSymbols, authCall_eq]
  repeat rw [String.toList_ofList]
  decide +kernel

theorem isSilent_helper : isSilent authCall (plainLines StepType.helperLines).parts = true := by
  simp only [plainLines, StepType.helperLines, List.map_cons, List.map_nil, parts, symbols, ofLines,
    List.flatMap_cons, List.flatMap_nil, List.cons_append, List.nil_append, pieceSymbols,
    String.toList_append, authCall_eq]
  repeat rw [String.toList_ofList]
  decide +kernel

theorem isSilent_start : isSilent authCall (plainLines ["casper.start();"]).parts = true := by
  decide +kernel

theorem isSilent_visit : isSilent authCall visitTemplate.parts = true := by
  decide +kernel

theorem isSilent_closing : isSilent authCall (plainLines closingLines).parts = true := by
  decide +kernel

theorem quiet_flatMap {α : Type} {g : α → List Token} (h : ∀ x, Quiet authCall (solid (g x)))
    (xs : List α) : Quiet authCall (solid (xs.flatMap g)) := by
  induction xs with
  | nil => exact fun _ => rfl
  | cons x xs ih =>
    rw [List.flatMap_cons, solid_append]
    exact (h x).append ih

theorem quiet_orBlank {ts : List Token} (h : Quiet authCall (solid ts)) :
    Quiet authCall (solid (orBlank ts)) := by
  rw [orBlank]
  split_ifs
  · exact fun _ => rfl
  · exact h

theorem quiet_helpersTokens (s : Site) : Quiet authCall (solid s.helpersTokens) := by
  refine quiet_flatMap (fun t => ?_) s.steps
  split_ifs
  · exact quiet_withTexts isSilent_helper []
  · exact fun _ => rfl

theorem quiet_stepsTokens (w : IndentWidth) (s : Site) : Quiet authCall (solid (s.stepsTokens w)) := by
  refine quiet_flatMap (fun t => ?_) s.steps
  have hend : solid [.mark '\n'] = [] := rfl
  rw [solid_append, hend, List.append_nil, Step.tokens, solid_layout]
  exact t.action.quiet_tokens t.name

theorem parts_auth : authTemplate.parts = "casper.setHttpAuth(".toList.map Part.mark ++
    [.filled "user", .mark ',', .mark ' ', .filled "pass", .mark ')', .mark ';', .mark '\n'] := by
  apply eq_of_beq
  decide +kernel

theorem solid_loginTokens (l : Login) : solid (loginTokens (some l)) =
    marks "casper.setHttpAuth(".toList ++
      [.literal '\'' l.user, .mark ',', .literal '\'' l.pass, .mark ')', .mark ';'] := by
  simp only [loginTokens, withTexts, parts_auth, fill_append, fill_mark, fill_cons, tokens_filled,
    solid_append]
  rw [String.toList_ofList]
  rfl

theorem following_loginTokens (l : Login) (us : List Token) :
    following authCall (solid (loginTokens (some l)) ++ us) =
      (.literal '\'' l.user :: .mark ',' :: .literal '\'' l.pass :: .mark ')' :: .mark ';' :: us) ::
        following authCall us := by
  rw [solid_loginTokens, authCall_eq, String.toList_ofList]
  rfl

/-- The arguments of the calls that log in. -/
def authArguments : Option Login → List (List (List Token))
  | some l => [[[.literal '\'' l.user], [.literal '\'' l.pass]]]
  | none => []

/-- A script logs in once if its site has a login, and not at all otherwise. -/
theorem calls_draft (w : IndentWidth) (s : Site) :
    calls ".setHttpAuth" (s.draft w) = authArguments s.login := by
  have hopening := quiet_withTexts isSilent_opening []
  have hstart := quiet_withTexts isSilent_start []
  have hvisit := quiet_withTexts isSilent_visit [("url", s.url)]
  have hclosing := quiet_withTexts isSilent_closing []
  have hbefore := (hopening.append (quiet_orBlank s.quiet_helpersTokens)).append hstart
  have hbehind := (hvisit.append (quiet_orBlank (s.quiet_stepsTokens w))).append hclosing
  have hnone := hbehind []
  rw [List.append_nil] at hnone
  have hcalls : calls ".setHttpAuth" (s.draft w) =
      (following authCall (solid (loginTokens s.login) ++
        ((solid (visitTemplate.withTexts [("url", s.url)]) ++ solid (orBlank (s.stepsTokens w))) ++
          solid ((plainLines closingLines).withTexts [])))).filterMap arguments? := by
    rw [← hbefore, calls, draft]
    simp only [solid_append, List.append_assoc]
    rfl
  rw [hcalls]
  cases s.login with
  | none => exact congrArg (List.filterMap arguments?) hnone
  | some l =>
    rw [following_loginTokens, hnone]
    rfl

/-- The arguments of the calls by which a script logs in; `none` if it cannot be taken apart. -/
def authCalls (script : String) : Option (List (List (List Token))) :=
  (Token.lex script.toList).map (calls ".setHttpAuth")

theorem isLine_authLine (l : Login) : Text.IsLine (authLine (some l)).toList := by
  refine ⟨newline_not_mem_authLine l, ?_⟩
  have hend : "');".toList = ['\'', ')', ';'] := String.toList_ofList
  have hne : "');".toList ≠ [] := by
    rw [hend]
    exact List.cons_ne_nil _ _
  have hlast : (authLine (some l)).toList.getLast? = "');".toList.getLast? := by
    unfold authLine
    rw [String.toList_append]
    exact List.getLast?_append_of_ne_nil _ hne
  rw [hlast, hend]
  decide

/-- The line that logs in stands between others. -/
theorem exists_reference_eq (w : IndentWidth) (s : Site) (scripts : List String) :
    ∃ as bs, as ≠ [] ∧ bs ≠ [] ∧ s.reference w scripts = as ++ authLine s.login :: bs := by
  refine ⟨[Layout.layout w ("\n".intercalate openingLines)] ++
      orEmpty ((s.steps.filter fun t => t.type = .selector).map fun _ =>
        Layout.layout w ("\n".intercalate StepType.helperLines)) ++ ["casper.start();"],
    visitLine s.url :: (orEmpty scripts ++ [Layout.layout w ("\n".intercalate closingLines)]),
    List.append_ne_nil_of_right_ne_nil _ (List.cons_ne_nil _ _), List.cons_ne_nil _ _, ?_⟩
  simp only [reference, List.append_assoc, List.cons_append, List.nil_append]

/-- The script of a site logs in with the login of the site, if there is one, on a line of its own. -/
theorem exists_compile_login (w : IndentWidth) (s : Site) : ∃ script, s.compile w = .ok script ∧
    authCalls script = some (authArguments s.login) ∧
      ∀ l ∈ s.login, (authLine (some l)).toList ∈ Text.lines script.toList := by
  have htokens := s.compile_eq_tokens w
  refine ⟨_, htokens, ?_, fun l hl => ?_⟩
  · rw [authCalls, String.toList_ofList, lex_text (s.plain_tokens w), Option.map_some, tokens,
      calls_layout, calls_draft]
  · have hcompile := s.compile_eq_intercalate w
    rw [htokens, Except.ok.injEq] at hcompile
    obtain ⟨as, bs, ha, hb, hreference⟩ := s.exists_reference_eq w _
    rw [Option.mem_def.1 hl] at hreference
    rw [hcompile, String.toList_intercalate, hreference, List.map_append, List.map_cons]
    exact Text.mem_lines_joinLines (isLine_authLine l) (by simpa using ha) (by simpa using hb)

end Site

end SiteScript
