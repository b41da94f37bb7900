import SiteScript.Proofs.Script.Block

/-!
# Calls in a script

A call is the name of a function, an opening bracket, and arguments with commas between them up to
the bracket that closes it.  `Token.calls` finds the calls of a function among the tokens of a
script and reads their arguments; blank marks do not count, and so neither does the layout
(`calls_layout`).

Tokens that hold no call and do not end within its name are quiet (`Quiet`): what stands behind them
is found as if they were not there.  A call whose arguments are known up to the last one is the only
call between quiet tokens (`filterMap_following_append`).
-/

namespace SiteScript.Token

open Layout

/-! ## Finding calls -/

/-- What follows some characters of the code at the head of some tokens. -/
def behind? : List Char → List Token → Option (List Token)
  | [], ts => some ts
  | c :: cs, t :: ts => if t = mark c then behind? cs ts else none
  | _ :: _, [] => none

/-- What follows each place where some characters stand in the code. -/
def following (cs : List Char) : List Token → List (List Token)
  | [] => []
  | t :: ts => (behind? cs (t :: ts)).toList ++ following cs ts

/-- A call that has been read in part: the brackets that are open in the current argument, the
tokens of that argument, and the arguments before it. -/
structure Call where
  opened : List Char := []
  argument : List Token := []
  arguments : List (List Token) := []
deriving DecidableEq

/-- Read one more token of a call.  The bracket that closes the call ends the reading; its outcome
is the arguments. -/
def Call.step (c : Call) (t : Token) : Except (List (List Token)) Call :=
  if c.opened = [] ∧ t = mark ')' then .error (c.arguments ++ [c.argument])
  else if c.opened = [] ∧ t = mark ',' then .ok ⟨[], [], c.arguments ++ [c.argument]⟩
  else .ok ⟨bracket c.opened t, c.argument ++ [t], c.arguments⟩

/-- The arguments of a call, from behind its opening bracket on. -/
def arguments? (ts : List Token) : Option (List (List Token)) :=
  match ts.foldlM Call.step {} with
  | .error arguments => some arguments
  | .ok _ => none

/-- The arguments of each call of a function, without blank marks. -/
def calls (name : String) (ts : List Token) : List (List (List Token)) :=
  (following (name.toList ++ ['(']) (solid ts)).filterMap arguments?

/-- Whether an argument is an array. -/
def isArray (argument : List Token) : Bool :=
  argument.head? = some (mark '[')

/-- Whether the last token is no character of a name. -/
def isSealed (cs : List Char) (ts : List Token) : Bool :=
  ts.getLast?.any (· ∉ marks cs)

/-- Tokens with which nothing is found that is not found behind them. -/
def Quiet (cs : List Char) (ts : List Token) : Prop :=
  ∀ us, following cs (ts ++ us) = following cs us

/-- The call that some tokens begin, if they begin one. -/
def begun? (cs : List Char) (ts : List Token) : Option Call :=
  match following cs ts with
  | [us] => (us.foldlM Call.step {}).toOption
  | _ => none

theorem calls_layout (name : String) (w : IndentWidth) (ts : List Token) :
    calls name (layout w ts) = calls name ts := by
  rw [calls, calls, solid_layout]

/-! ## Places in parts of a script -/

theorem behind?_append {cs : List Char} {t : Token} (ht : t ∉ marks cs) (ts us : List Token) :
    behind? cs (ts ++ t :: us) = (behind? cs ts).map fun vs => vs ++ t :: us := by
  induction cs generalizing ts with
  | nil => rfl
  | cons c cs ih =>
    rw [marks, List.map_cons, ← marks, List.mem_cons, not_or] at ht
    obtain ⟨hc, hcs⟩ := ht
    cases ts with
    | nil => rw [List.nil_append, behind?, if_neg hc, behind?, Option.map_none]
    | cons u ts =>
      rw [List.cons_append, behind?, behind?]
      by_cases hu : u = mark c
      · rw [if_pos hu, if_pos hu, ih hcs]
      · rw [if_neg hu, if_neg hu, Option.map_none]

theorem following_cons (cs : List Char) (t : Token) (ts : List Token) :
    following cs (t :: ts) = (behind? cs (t :: ts)).toList ++ following cs ts := rfl

theorem Quiet.append {cs : List Char} {ts us : List Token} (h : Quiet cs ts) (h' : Quiet cs us) :
    Quiet cs (ts ++ us) := by
  intro vs
  rw [List.append_assoc, h, h']

section

variable {cs : List Char} (hcs : cs ≠ [])

include hcs

theorem following_cons_of_not_mem {t : Token} (ht : t ∉ marks cs) (ts : List Token) :
    following cs (t :: ts) = following cs ts := by
  obtain ⟨c, cs, rfl⟩ := List.exists_cons_of_ne_nil hcs
  have hc : t ≠ mark c := fun e => ht (e ▸ List.mem_cons_self)
  rw [following_cons, behind?, if_neg hc]
  rfl

theorem following_append_cons {t : Token} (ht : t ∉ marks cs) (ts us : List Token) :
    following cs (ts ++ t :: us) =
      (following cs ts).map (fun vs => vs ++ t :: us) ++ following cs us := by
  induction ts with
  | nil => exact following_cons_of_not_mem hcs ht us
  | cons u ts ih =>
    have hfirst := behind?_append ht (u :: ts) us
    rw [List.cons_append] at hfirst ⊢
    rw [following_cons, following_cons, ih, hfirst]
    cases behind? cs (u :: ts) <;> rfl

/-- A token that is no character of a name keeps the places before it from those behind it. -/
theorem following_append {ts us : List Token}
    (h : (∃ t ∈ ts.getLast?, t ∉ marks cs) ∨ ∃ t ∈ us.head?, t ∉ marks cs) :
    following cs (ts ++ us) = (following cs ts).map (fun vs => vs ++ us) ++ following cs us := by
  obtain ⟨t, hlast, ht⟩ | ⟨t, hhead, ht⟩ := h
  · obtain ⟨ts, rfl⟩ := List.getLast?_eq_some_iff.1 hlast
    rw [List.append_assoc, List.singleton_append, following_append_cons hcs ht,
      following_append_cons hcs ht, List.map_append, List.map_map]
    simp [following]
  · obtain ⟨us, rfl⟩ := List.head?_eq_some_iff.1 hhead
    rw [following_append_cons hcs ht, following_cons_of_not_mem hcs ht]

/-- Tokens without a place, which do not end within a name either. -/
theorem quiet_of_isSealed {ts : List Token} (h : following cs ts = [])
    (hlast : isSealed cs ts = true) : Quiet cs ts := by
  obtain ⟨t, ht, hend⟩ := (Option.any_eq_true _ _).1 hlast
  intro us
  rw [following_append hcs (.inl ⟨t, ht, of_decide_eq_true hend⟩), h]
  rfl

/-- Tokens that are no characters of a name. -/
theorem quiet_of_not_mem {ts : List Token} (h : ∀ t ∈ ts, t ∉ marks cs) : Quiet cs ts := by
  intro us
  induction ts with
  | nil => rfl
  | cons t ts ih =>
    obtain ⟨ht, hts⟩ := List.forall_mem_cons.1 h
    rw [List.cons_append, following_cons_of_not_mem hcs ht, ih hts]

end

/-! ## Contents of literals -/

theorem behind?_map_outline (cs : List Char) (ts : List Token) :
    behind? cs (ts.map outline) = (behind? cs ts).map (List.map outline) := by
  induction cs generalizing ts with
  | nil => rfl
  | cons c cs ih =>
    cases ts with
    | nil => rfl
    | cons t ts =>
      rw [List.map_cons, behind?, behind?]
      by_cases ht : t = mark c
      · rw [if_pos ht, if_pos (outline_eq_mark_iff.2 ht), ih]
      · rw [if_neg ht, if_neg fun e => ht (outline_eq_mark_iff.1 e), Option.map_none]

theorem following_map_outline (cs : List Char) (ts : List Token) :
    following cs (ts.map outline) = (following cs ts).map (List.map outline) := by
  induction ts with
  | nil => rfl
  | cons t ts ih =>
    have hfirst := behind?_map_outline cs (t :: ts)
    rw [List.map_cons] at hfirst ⊢
    rw [following_cons, following_cons, ih, hfirst]
    cases behind? cs (t :: ts) <;> rfl

theorem solid_map_outline (ts : List Token) : solid (ts.map outline) = (solid ts).map outline := by
  have hblank : ∀ t, isBlank (outline t) = isBlank t := congrFun isBlank_comp_outline
  rw [solid, solid, List.filter_map]
  simp only [Function.comp_def, hblank]

/-- A call with the contents of literals left out. -/
def Call.outline (c : Call) : Call :=
  ⟨c.opened, c.argument.map Token.outline, c.arguments.map (List.map Token.outline)⟩

/-- What is read with the contents of literals left out. -/
def outlineRead : Except (List (List Token)) Call → Except (List (List Token)) Call
  | .ok c => .ok c.outline
  | .error arguments => .error (arguments.map (List.map outline))

theorem step_outline (c : Call) (t : Token) :
    c.outline.step t.outline = outlineRead (c.step t) := by
  simp only [Call.step, Call.outline, outline_eq_mark_iff, bracket_outline]
  split_ifs <;> simp [outlineRead, Call.outline]

theorem foldlM_step_outline (c : Call) (ts : List Token) :
    (ts.map outline).foldlM Call.step c.outline = outlineRead (ts.foldlM Call.step c) := by
  induction ts generalizing c with
  | nil => rfl
  | cons t ts ih =>
    rw [List.map_cons, List.foldlM_cons, List.foldlM_cons, step_outline]
    cases c.step t with
    | error arguments => rfl
    | ok d => exact ih d

theorem begun?_map_outline (cs : List Char) (ts : List Token) :
    begun? cs (ts.map outline) = (begun? cs ts).map Call.outline := by
  rw [begun?, begun?, following_map_outline]
  match following cs ts with
  | [] | _ :: _ :: _ => rfl
  | [us] =>
    have hread := foldlM_step_outline {} us
    change (us.map outline).foldlM Call.step {} = _ at hread
    simp only [List.map_cons, List.map_nil, hread]
    cases us.foldlM Call.step {} <;> rfl

theorem isSealed_map_outline (cs : List Char) (ts : List Token) :
    isSealed cs (ts.map outline) = isSealed cs ts := by
  have hmarks (t : Token) : t.outline ∈ marks cs ↔ t ∈ marks cs := by
    simp only [marks, List.mem_map, eq_comm (b := t.outline), eq_comm (b := t), outline_eq_mark_iff]
  rw [isSealed, isSealed, List.getLast?_map]
  cases ts.getLast? with
  | none => rfl
  | some t => exact decide_eq_decide.2 (not_congr (hmarks t))

theorem isArray_map_outline (argument : List Token) :
    isArray (argument.map outline) = isArray argument := by
  cases argument with
  | nil => rfl
  | cons t ts => simp [isArray, outline_eq_mark_iff]

/-! ## Arrays -/

/-- Tokens within the brackets of an argument, which end neither the argument nor the call. -/
def Enclosed (ts : List Token) : Prop :=
  ∀ c : Call, c.opened ≠ [] → ts.foldlM Call.step c = .ok ⟨c.opened, c.argument ++ ts, c.arguments⟩

theorem Enclosed.append {ts us : List Token} (h : Enclosed ts) (h' : Enclosed us) :
    Enclosed (ts ++ us) := by
  intro c hc
  have hus := h' ⟨c.opened, c.argument ++ ts, c.arguments⟩ hc
  rw [List.foldlM_append, h c hc, List.append_assoc] at *
  exact hus

theorem enclosed_intercalate {sep : List Token} (hsep : Enclosed sep) {ls : List (List Token)}
    (h : ∀ l ∈ ls, Enclosed l) : Enclosed (sep.intercalate ls) :=
  intercalate_of_append (fun c _ => by simp [pure, Except.pure]) (fun _ _ => Enclosed.append) hsep h

theorem step_of_opened {c : Call} (hc : c.opened ≠ []) (t : Token) :
    c.step t = .ok ⟨bracket c.opened t, c.argument ++ [t], c.arguments⟩ := by
  rw [Call.step, if_neg fun h => hc h.1, if_neg fun h => hc h.1]

/-- Tokens that are no brackets. -/
theorem enclosed_of_bracket {ts : List Token} (h : ∀ t ∈ ts, ∀ opened, bracket opened t = opened) :
    Enclosed ts := by
  induction ts with
  | nil => exact fun c _ => by simp [pure, Except.pure]
  | cons t ts ih =>
    obtain ⟨ht, hts⟩ := List.forall_mem_cons.1 h
    have hfirst : Enclosed [t] := by
      intro c hc
      rw [List.foldlM_cons, step_of_opened hc, ht]
      rfl
    exact hfirst.append (ih hts)

/-- Brackets and what they enclose stand within one argument, also where no other bracket is open.
-/
theorem foldlM_step_bracketed {o e : Char} (ho : isOpener o = true) (he : closer? o = some e)
    {ts : List Token} (h : Enclosed ts) (c : Call) :
    (mark o :: ts ++ [mark e]).foldlM Call.step c =
      .ok ⟨c.opened, c.argument ++ (mark o :: ts ++ [mark e]), c.arguments⟩ := by
  have hopen : c.step (mark o) = .ok ⟨o :: c.opened, c.argument ++ [mark o], c.arguments⟩ := by
    have hbracket : bracket c.opened (mark o) = o :: c.opened := if_pos ho
    have hparen : mark o ≠ mark ')' := by
      rintro ⟨⟩
      cases ho
    have hcomma : mark o ≠ mark ',' := by
      rintro ⟨⟩
      cases ho
    rw [Call.step, if_neg fun h => hparen h.2, if_neg fun h => hcomma h.2, hbracket]
  have hclose : bracket (o :: c.opened) (mark e) = c.opened := by
    unfold closer? at he
    split_ifs at he with hround hsquare hcurly
    all_goals
      cases he
      simp_all [bracket, isOpener, isCloser, closer?]
  have henclosed := h ⟨o :: c.opened, c.argument ++ [mark o], c.arguments⟩ (List.cons_ne_nil _ _)
  rw [List.cons_append, List.foldlM_cons, hopen]
  simp only [bind, Except.bind]
  rw [List.foldlM_append, henclosed]
  simp only [bind, Except.bind]
  rw [List.foldlM_cons, step_of_opened (List.cons_ne_nil _ _), hclose]
  simp [pure, Except.pure, bind, Except.bind]

theorem enclosed_bracketed {o e : Char} (ho : isOpener o = true) (he : closer? o = some e)
    {ts : List Token} (h : Enclosed ts) : Enclosed (mark o :: ts ++ [mark e]) :=
  fun c _ => foldlM_step_bracketed ho he h c

/-- A call that stands between quiet tokens and whose last argument is quiet is the only one. -/
theorem filterMap_following_append {cs : List Char} (hcs : cs ≠ [])
    {start call argument behind : List Token} {c : Call} (hstart : Quiet cs start)
    (hcall : begun? cs call = some c) (hsealed : isSealed cs call = true) (hopened : c.opened = [])
    (hnext : c.argument = []) (hargument : Quiet cs argument)
    (hread : ∀ d : Call, argument.foldlM Call.step d =
      .ok ⟨d.opened, d.argument ++ argument, d.arguments⟩)
    (hbehind : following cs behind = []) (hclose : behind.head? = some (mark ')')) :
    (following cs (start ++ (call ++ (argument ++ behind)))).filterMap arguments? =
      [c.arguments ++ [argument]] := by
  obtain ⟨us, hus, hfold⟩ : ∃ us, following cs call = [us] ∧ us.foldlM Call.step {} = .ok c := by
    unfold begun? at hcall
    split at hcall
    · next us hus =>
      refine ⟨us, hus, ?_⟩
      cases hfold : us.foldlM Call.step {} with
      | error arguments =>
        rw [hfold] at hcall
        cases hcall
      | ok d =>
        rw [hfold] at hcall
        exact congrArg Except.ok (Option.some.inj hcall)
    · cases hcall
  obtain ⟨t, ht, hend⟩ := (Option.any_eq_true _ _).1 hsealed
  obtain ⟨rest, rfl⟩ := List.head?_eq_some_iff.1 hclose
  have hlast : Call.step ⟨[], argument, c.arguments⟩ (mark ')') =
      .error (c.arguments ++ [argument]) := rfl
  have harguments : arguments? (us ++ (argument ++ mark ')' :: rest)) =
      some (c.arguments ++ [argument]) := by
    rw [arguments?, List.foldlM_append, hfold]
    simp only [bind, Except.bind]
    rw [List.foldlM_append, hread]
    simp only [bind, Except.bind, hopened, hnext, List.nil_append]
    rw [List.foldlM_cons, hlast]
    rfl
  rw [hstart, following_append hcs (.inl ⟨t, ht, of_decide_eq_true hend⟩), hus, hargument, hbehind,
    List.append_nil, List.map_singleton, List.filterMap_cons, harguments]
  rfl

end SiteScript.Token
