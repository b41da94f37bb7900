import Mathlib.Data.List.Infix
import SiteScript.Proofs.Script.Pattern
import SiteScript.Proofs.Text.Lines

/-!
# The grammar of templates

A source is a template when it is text and slots by turns, where no text holds two opening braces in
a row and none that a slot follows ends with one.  `Reading` is such a division of a source, `Flawed`
says of a source that it has none, and why.  `ofChars` follows the grammar: it reads what a reading
writes (`ofChars_chars`), reads nothing else (`exists_reading`), a source has one reading at most
(`Reading.chars_injective`), and a source without a reading is flawed and reported as such
(`ofChars_eq_error_iff`).
-/

namespace SiteScript.Template

/-! ## Cutting at a pair -/

/-- Whether `c` stands twice in a row in a text. -/
def HasPair (c : Char) (cs : List Char) : Prop :=
  [c, c] <:+: cs

theorem hasPair_cons_cons {c x y : Char} {cs : List Char} :
    HasPair c (x :: y :: cs) ↔ (x = c ∧ y = c) ∨ HasPair c (y :: cs) := by
  rw [HasPair, List.infix_cons_iff, List.cons_prefix_cons, List.cons_prefix_cons]
  simp only [List.nil_prefix, and_true, eq_comm]
  rfl

theorem not_hasPair_singleton (c x : Char) : ¬ HasPair c [x] := by
  intro h
  have := h.length_le
  simp at this

theorem not_hasPair_of_not_mem {c : Char} {cs : List Char} (h : c ∉ cs) : ¬ HasPair c cs :=
  fun hp => h (hp.subset List.mem_cons_self)

/-- A text without a pair of `c` in which none begins either when a pair of `c` is put behind it. -/
structure UpToPair (c : Char) (cs : List Char) : Prop where
  not_hasPair : ¬ HasPair c cs
  getLast?_ne : cs.getLast? ≠ some c

theorem UpToPair.of_not_mem {c : Char} {cs : List Char} (h : c ∉ cs) : UpToPair c cs :=
  ⟨not_hasPair_of_not_mem h, fun hl => h (List.mem_of_getLast? hl)⟩

theorem upToPair_nil (c : Char) : UpToPair c [] :=
  .of_not_mem List.not_mem_nil

theorem upToPair_cons_cons {c x y : Char} {cs : List Char} :
    UpToPair c (x :: y :: cs) ↔ ¬ (x = c ∧ y = c) ∧ UpToPair c (y :: cs) := by
  constructor
  · intro ⟨hp, hl⟩
    rw [hasPair_cons_cons, not_or] at hp
    rw [List.getLast?_cons_cons] at hl
    exact ⟨hp.1, hp.2, hl⟩
  · intro ⟨hxy, hp, hl⟩
    refine ⟨?_, by rwa [List.getLast?_cons_cons]⟩
    rw [hasPair_cons_cons, not_or]
    exact ⟨hxy, hp⟩

theorem cut_eq_none_iff {c : Char} {cs : List Char} : cut c cs = none ↔ ¬ HasPair c cs := by
  fun_induction cut c cs with
  | case1 x y cs h => simp [hasPair_cons_cons, h]
  | case2 x y cs h ih => rw [Option.map_eq_none_iff, ih, hasPair_cons_cons, not_or, and_iff_right h]
  | case3 cs h =>
    refine iff_of_true rfl fun hp => ?_
    match cs, h with
    | [], _ => exact absurd hp.length_le (by simp)
    | [x], _ => exact not_hasPair_singleton c x hp
    | x :: y :: cs, h => exact h x y cs rfl

theorem cut_append {c : Char} {before : List Char} (h : UpToPair c before) (after : List Char) :
    cut c (before ++ c :: c :: after) = some (before, after) := by
  induction before with
  | nil => simp [cut]
  | cons x before ih =>
    cases before with
    | nil =>
      have hx : x ≠ c := by simpa using h.getLast?_ne
      simp [cut, hx]
    | cons y before =>
      obtain ⟨hxy, hrest⟩ := upToPair_cons_cons.1 h
      have := ih hrest
      rw [List.cons_append] at this
      rw [List.cons_append, List.cons_append, cut, if_neg hxy, this]
      rfl

/-- A text is cut before its first pair. -/
theorem cut_eq_some_iff {c : Char} {cs before after : List Char} :
    cut c cs = some (before, after) ↔ cs = before ++ c :: c :: after ∧ UpToPair c before := by
  refine ⟨fun h => ?_, fun ⟨hcs, hb⟩ => hcs ▸ cut_append hb after⟩
  induction cs generalizing before with
  | nil => simp [cut] at h
  | cons x cs ih =>
    cases cs with
    | nil => simp [cut] at h
    | cons y cs =>
      rw [cut] at h
      split at h
      · next hxy =>
        cases h
        exact ⟨by rw [hxy.1, hxy.2]; rfl, upToPair_nil c⟩
      · next hxy =>
        obtain ⟨⟨b, a⟩, hcut, he⟩ := Option.map_eq_some_iff.1 h
        cases he
        obtain ⟨hcs, hb⟩ := ih hcut
        refine ⟨by rw [hcs]; rfl, ?_⟩
        cases b with
        | nil =>
          -- The pair begins with `y`, so that `x` is another character.
          obtain rfl : y = c := by simpa using (List.cons.inj hcs).1
          exact .of_not_mem fun hm => hxy ⟨(List.mem_singleton.1 hm).symm, rfl⟩
        | cons z b =>
          obtain rfl : y = z := (List.cons.inj hcs).1
          exact upToPair_cons_cons.2 ⟨hxy, hb⟩

/-! ## Slots -/

/-- The name of a slot: at least one character, and only ASCII letters, digits and underscores. -/
def SlotName (cs : List Char) : Prop :=
  cs ≠ [] ∧ ∀ c ∈ cs, ('a' ≤ c ∧ c ≤ 'z') ∨ ('A' ≤ c ∧ c ≤ 'Z') ∨ ('0' ≤ c ∧ c ≤ '9') ∨ c = '_'

theorem isNameChar_iff {c : Char} : isNameChar c = true ↔
    ('a' ≤ c ∧ c ≤ 'z') ∨ ('A' ≤ c ∧ c ≤ 'Z') ∨ ('0' ≤ c ∧ c ≤ '9') ∨ c = '_' := by
  delta isNameChar Char.isAlphanum Char.isAlpha Char.isUpper Char.isLower Char.isDigit
  simp only [Bool.or_eq_true, Bool.and_eq_true, decide_eq_true_eq, Char.le_def]
  tauto

theorem isName_iff {cs : List Char} : isName cs = true ↔ SlotName cs := by
  rw [isName, Bool.and_eq_true, Bool.not_eq_true', List.isEmpty_eq_false_iff, List.all_eq_true]
  exact and_congr_right fun _ => forall₂_congr fun _ _ => isNameChar_iff

theorem SlotName.not_blank {cs : List Char} (h : SlotName cs) : ∀ c ∈ cs, Text.isBlank c = false := by
  intro c hc
  have hname := h.2 c hc
  simp only [Char.le_def, UInt32.le_iff_toNat_le] at hname
  change (97 ≤ c.toNat ∧ c.toNat ≤ 122) ∨ (65 ≤ c.toNat ∧ c.toNat ≤ 90) ∨
    (48 ≤ c.toNat ∧ c.toNat ≤ 57) ∨ c = '_' at hname
  rw [Text.isBlank, Text.blankIntervals, List.any_eq_false]
  rcases hname with h | h | h | rfl
  · simp; omega
  · simp; omega
  · simp; omega
  · decide

theorem SlotName.brace_not_mem {cs : List Char} (h : SlotName cs) : '\x7d' ∉ cs :=
  fun hm => absurd (h.2 _ hm) (by decide)

/-- A slot as it is written: a name between two pairs of braces, with blanks around it. -/
structure Slot where
  before : List Char
  name : List Char
  after : List Char
  blank_before : ∀ c ∈ before, Text.isBlank c = true
  slotName : SlotName name
  blank_after : ∀ c ∈ after, Text.isBlank c = true

namespace Slot

/-- What stands between the braces of a slot. -/
def padded (s : Slot) : List Char :=
  s.before ++ (s.name ++ s.after)

theorem trim_padded (s : Slot) : Text.trim s.padded = s.name := by
  rw [padded, Text.trim_append_of_blank s.blank_before, Text.trim_append_of_blank_end s.blank_after,
    Text.trim_of_not_blank s.slotName.not_blank]

theorem brace_not_mem_padded (s : Slot) : '\x7d' ∉ s.padded := by
  have hb : Text.isBlank '\x7d' = false := by decide
  intro h
  rcases List.mem_append.1 h with h | h
  · exact Bool.false_ne_true (hb.symm.trans (s.blank_before _ h))
  rcases List.mem_append.1 h with h | h
  · exact s.slotName.brace_not_mem h
  · exact Bool.false_ne_true (hb.symm.trans (s.blank_after _ h))

/-- A text between braces that is a name with blanks around it is that of one slot only. -/
theorem padded_injective {s t : Slot} (h : s.padded = t.padded) : s = t := by
  have hname : s.name = t.name := by rw [← s.trim_padded, ← t.trim_padded, h]
  have htake (u : Slot) : u.padded.takeWhile Text.isBlank = u.before := by
    obtain ⟨c, cs, hcs⟩ := List.exists_cons_of_ne_nil u.slotName.1
    have hc := u.slotName.not_blank c (hcs ▸ List.mem_cons_self)
    rw [padded, List.takeWhile_append_of_pos u.blank_before, hcs, List.cons_append,
      List.takeWhile_cons_of_neg (by simp [hc]), List.append_nil]
  have hbefore : s.before = t.before := by rw [← htake s, ← htake t, h]
  have hafter : s.after = t.after := by
    rw [padded, padded, hbefore, hname] at h
    exact List.append_cancel_left (List.append_cancel_left h)
  cases s
  cases t
  simp_all

theorem exists_padded_eq {cs : List Char} (h : SlotName (Text.trim cs)) :
    ∃ s : Slot, s.padded = cs ∧ s.name = Text.trim cs := by
  obtain ⟨before, after, hbefore, hafter, hcs⟩ := Text.exists_blank_append_trim cs
  exact ⟨⟨before, Text.trim cs, after, hbefore, h, hafter⟩, hcs.symm, rfl⟩

end Slot

/-! ## Readings -/

/-- A division of a source into texts and slots by turns. -/
inductive Reading where
  /-- Text that no slot follows. -/
  | text (cs : List Char) (h : ¬ HasPair '\x7b' cs)
  /-- Text, a slot behind it and what follows. -/
  | slot (cs : List Char) (h : UpToPair '\x7b' cs) (s : Slot) (rest : Reading)

namespace Reading

/-- The source that is divided. -/
def chars : Reading → List Char
  | text cs _ => cs
  | slot cs _ s rest => cs ++ '\x7b' :: '\x7b' :: (s.padded ++ '\x7d' :: '\x7d' :: rest.chars)

/-- The names of the slots in order. -/
def names : Reading → List String
  | text _ _ => []
  | slot _ _ s rest => String.ofList s.name :: rest.names

/-- The source with a value in place of each slot. -/
def fill (value : String → String) : Reading → List Char
  | text cs _ => cs
  | slot cs _ s rest => cs ++ ((value (String.ofList s.name)).toList ++ rest.fill value)

/-- The template that is read. -/
def template : Reading → Template
  | text cs _ => ofText cs
  | slot cs _ s rest => ofText cs ++ .slot (String.ofList s.name) :: rest.template

end Reading

/-- The source has no reading: behind texts and slots there are two braces that nothing closes, or
the first two closing braces behind them close what is no slot.  `shown` is what is reported. -/
inductive Flawed : (source shown : List Char) → Prop
  /-- Nothing closes the braces; the rest of their line is shown. -/
  | unclosed {cs inner : List Char} (h : UpToPair '\x7b' cs) (hinner : ¬ HasPair '\x7d' inner) :
      Flawed (cs ++ '\x7b' :: '\x7b' :: inner) (Text.firstLine inner)
  /-- No name stands between the braces; what stands there is shown without blanks around it. -/
  | unnamed {cs padded tail : List Char} (h : UpToPair '\x7b' cs) (hpadded : UpToPair '\x7d' padded)
      (hname : ¬ SlotName (Text.trim padded)) :
      Flawed (cs ++ '\x7b' :: '\x7b' :: (padded ++ '\x7d' :: '\x7d' :: tail)) (Text.trim padded)
  /-- A slot is written well and the fault is behind it. -/
  | behind {cs rest shown : List Char} (h : UpToPair '\x7b' cs) (s : Slot) (hrest : Flawed rest shown) :
      Flawed (cs ++ '\x7b' :: '\x7b' :: (s.padded ++ '\x7d' :: '\x7d' :: rest)) shown

/-! ## Reading -/

section

variable {cs rest shown : List Char}

theorem ofChars_of_not_hasPair (h : ¬ HasPair '\x7b' cs) : ofChars cs = .ok (ofText cs) := by
  rw [ofChars]
  split
  · rfl
  · next before inner hcut => rw [cut_eq_none_iff.2 h] at hcut; cases hcut

theorem ofChars_unclosed {inner : List Char} (h : UpToPair '\x7b' cs)
    (hinner : ¬ HasPair '\x7d' inner) :
    ofChars (cs ++ '\x7b' :: '\x7b' :: inner) =
      .error (.unresolvedSlot (String.ofList (Text.firstLine inner))) := by
  rw [ofChars]
  split
  · next hcut => rw [cut_append h] at hcut; cases hcut
  · next before inner hcut =>
    rw [cut_append h] at hcut
    cases hcut
    split
    · rfl
    · next hclose => rw [cut_eq_none_iff.2 hinner] at hclose; cases hclose

/-- What `ofChars` does with text that stands between pairs of braces. -/
theorem ofChars_padded {padded : List Char} (h : UpToPair '\x7b' cs)
    (hpadded : UpToPair '\x7d' padded) (rest : List Char) :
    ofChars (cs ++ '\x7b' :: '\x7b' :: (padded ++ '\x7d' :: '\x7d' :: rest)) =
      if isName (Text.trim padded) then (ofChars rest).map fun parts =>
        ofText cs ++ .slot (String.ofList (Text.trim padded)) :: parts
      else .error (.unresolvedSlot (String.ofList (Text.trim padded))) := by
  rw [ofChars]
  split
  · next hcut => rw [cut_append h] at hcut; cases hcut
  · next before inner hcut =>
    rw [cut_append h] at hcut
    cases hcut
    split
    · next hclose => rw [cut_append hpadded] at hclose; cases hclose
    · next hclose =>
      rw [cut_append hpadded] at hclose
      cases hclose
      rfl

theorem ofChars_slot (h : UpToPair '\x7b' cs) (s : Slot) (rest : List Char) :
    ofChars (cs ++ '\x7b' :: '\x7b' :: (s.padded ++ '\x7d' :: '\x7d' :: rest)) =
      (ofChars rest).map fun parts => ofText cs ++ .slot (String.ofList s.name) :: parts := by
  rw [ofChars_padded h (.of_not_mem s.brace_not_mem_padded), s.trim_padded,
    if_pos (isName_iff.2 s.slotName)]

/-- A reading is read. -/
theorem ofChars_chars (g : Reading) : ofChars g.chars = .ok g.template := by
  induction g with
  | text cs h => exact ofChars_of_not_hasPair h
  | slot cs h s rest ih =>
    rw [Reading.chars, ofChars_slot h, ih]
    rfl

/-- A flawed source is reported with what its flaw shows. -/
theorem Flawed.ofChars_eq (h : Flawed cs shown) :
    ofChars cs = .error (.unresolvedSlot (String.ofList shown)) := by
  induction h with
  | unclosed h hinner => exact ofChars_unclosed h hinner
  | unnamed h hpadded hname =>
    rw [ofChars_padded h hpadded, if_neg fun hn => hname (isName_iff.1 hn)]
  | behind h s _ ih =>
    rw [ofChars_slot h, ih]
    rfl

/-- A source has a reading or is flawed. -/
theorem exists_reading_or_flawed (cs : List Char) :
    (∃ g : Reading, g.chars = cs) ∨ ∃ shown, Flawed cs shown := by
  fun_induction ofChars cs with
  | case1 cs hcut => exact .inl ⟨.text cs (cut_eq_none_iff.1 hcut), rfl⟩
  | case2 cs before inner hcut hclose =>
    obtain ⟨rfl, hbefore⟩ := cut_eq_some_iff.1 hcut
    exact .inr ⟨_, .unclosed hbefore (cut_eq_none_iff.1 hclose)⟩
  | case3 cs before inner hcut padded rest hclose name hname ih =>
    obtain ⟨rfl, hbefore⟩ := cut_eq_some_iff.1 hcut
    obtain ⟨rfl, -⟩ := cut_eq_some_iff.1 hclose
    obtain ⟨s, rfl, -⟩ := Slot.exists_padded_eq (isName_iff.1 hname)
    rcases ih with ⟨g, rfl⟩ | ⟨shown, hflawed⟩
    · exact .inl ⟨.slot before hbefore s g, rfl⟩
    · exact .inr ⟨shown, .behind hbefore s hflawed⟩
  | case4 cs before inner hcut padded rest hclose name hname =>
    obtain ⟨rfl, hbefore⟩ := cut_eq_some_iff.1 hcut
    obtain ⟨rfl, hpadded⟩ := cut_eq_some_iff.1 hclose
    exact .inr ⟨_, .unnamed hbefore hpadded fun hn => hname (isName_iff.2 hn)⟩

end

namespace Reading

theorem cut_chars_text {cs : List Char} (h : ¬ HasPair '\x7b' cs) :
    cut '\x7b' (text cs h).chars = none :=
  cut_eq_none_iff.2 h

theorem cut_chars_slot {cs : List Char} (h : UpToPair '\x7b' cs) (s : Slot) (rest : Reading) :
    cut '\x7b' (slot cs h s rest).chars = some (cs, s.padded ++ '\x7d' :: '\x7d' :: rest.chars) :=
  cut_append h _

/-- A source has one reading at most. -/
theorem chars_injective {g k : Reading} (h : g.chars = k.chars) : g = k := by
  induction g generalizing k with
  | text cs hcs =>
    have hcut := cut_chars_text hcs
    rw [h] at hcut
    cases k with
    | text ds hds =>
      obtain rfl : cs = ds := h
      rfl
    | slot ds hds t rest => rw [cut_chars_slot] at hcut; cases hcut
  | slot cs hcs s rest ih =>
    have hcut := cut_chars_slot hcs s rest
    rw [h] at hcut
    cases k with
    | text ds hds => rw [cut_chars_text] at hcut; cases hcut
    | slot ds hds t krest =>
      rw [cut_chars_slot, Option.some.injEq, Prod.mk.injEq] at hcut
      obtain ⟨rfl, hinner⟩ := hcut
      have hclose := cut_append (.of_not_mem t.brace_not_mem_padded) krest.chars
      rw [hinner, cut_append (.of_not_mem s.brace_not_mem_padded), Option.some.injEq,
        Prod.mk.injEq] at hclose
      obtain ⟨hpadded, hrest⟩ := hclose
      obtain rfl := Slot.padded_injective hpadded
      rw [ih hrest]

end Reading

/-! ## Rendering -/

theorem tokens_ofText_append (cs : List Char) (t : Template) : tokens (ofText cs ++ t) = tokens t := by
  rw [ofText]
  split_ifs
  · rfl
  · rfl

theorem symbols_ofText_append (cs : List Char) (t : Template) :
    symbols (ofText cs ++ t) = cs.map .char ++ symbols t := by
  rw [ofText]
  split_ifs with hcs
  · rw [hcs]
    rfl
  · rw [symbols, List.singleton_append, List.flatMap_cons, pieceSymbols, String.toList_ofList]
    rfl

namespace Reading

theorem tokens_template (g : Reading) : g.template.tokens = g.names := by
  induction g with
  | text cs h =>
    have htokens := tokens_ofText_append cs []
    rw [List.append_nil] at htokens
    exact htokens
  | slot cs h s rest ih =>
    rw [template, tokens_ofText_append, names, ← ih]
    rfl

theorem flatMap_chars_symbols_template (g : Reading) (bs : Bindings) :
    g.template.symbols.flatMap (Symbol.chars bs) = g.fill fun name => (bs.get? name).getD "" := by
  induction g with
  | text cs h =>
    have hsymbols := symbols_ofText_append cs []
    rw [List.append_nil] at hsymbols
    rw [template, hsymbols, List.flatMap_append, flatMap_chars_map_char, fill]
    exact List.append_nil cs
  | slot cs h s rest ih =>
    rw [template, symbols_ofText_append, List.flatMap_append, flatMap_chars_map_char, fill, ← ih]
    rfl

theorem fill_congr {g : Reading} {v w : String → String} (h : ∀ name ∈ g.names, v name = w name) :
    g.fill v = g.fill w := by
  induction g with
  | text cs _ => rfl
  | slot cs _ s rest ih =>
    obtain ⟨hs, hrest⟩ := List.forall_mem_cons.1 h
    rw [fill, fill, hs, ih hrest]

/-- Values are copied into the places of the slots. -/
theorem render_template {g : Reading} {bs : Bindings} {value : String → String}
    (h : ∀ name ∈ g.names, bs.get? name = some (value name)) :
    g.template.render bs = .ok (String.ofList (g.fill value)) := by
  rw [render_eq, flatMap_chars_symbols_template, fill_congr]
  · intro name hn
    rw [h name hn, Option.getD_some]
  · intro name hn
    rw [slot_mem_symbols_iff, tokens_template] at hn
    rw [h name hn]
    rfl

end Reading

/-- The first slot without a value is reported. -/
theorem render_eq_error {t : Template} {bs : Bindings} {before after : List String} {name : String}
    (h : t.tokens = before ++ name :: after) (hbefore : ∀ m ∈ before, (bs.get? m).isSome)
    (hname : bs.get? name = none) : t.render bs = .error (.unresolvedSlot name) := by
  suffices hpieces : t.mapM (renderPiece bs) = .error (.unresolvedSlot name) by
    rw [render, hpieces]
    rfl
  induction t generalizing before with
  | nil => exact absurd h.symm (by simp [tokens])
  | cons p t ih =>
    rw [List.mapM_cons]
    cases p with
    | text content =>
      rw [ih h hbefore]
      rfl
    | slot m =>
      have htokens : m :: tokens t = before ++ name :: after := h
      cases before with
      | nil =>
        obtain rfl : m = name := (List.cons.inj htokens).1
        rw [renderPiece, hname]
        rfl
      | cons b before =>
        obtain ⟨rfl, hrest⟩ := List.cons.inj htokens
        obtain ⟨hm, hbefore⟩ := List.forall_mem_cons.1 hbefore
        obtain ⟨value, hvalue⟩ := Option.isSome_iff_exists.1 hm
        rw [renderPiece, hvalue, ih hrest hbefore]
        rfl

theorem all_bound_or_first_unbound (bs : Bindings) (names : List String) :
    (∀ name ∈ names, (bs.get? name).isSome) ∨ ∃ before name after, names = before ++ name :: after ∧
      (∀ m ∈ before, (bs.get? m).isSome) ∧ bs.get? name = none := by
  cases h : names.find? fun name => (bs.get? name).isNone with
  | none =>
    left
    intro name hname
    exact Option.isSome_iff_ne_none.2 (by simpa using List.find?_eq_none.1 h name hname)
  | some name =>
    right
    obtain ⟨hnone, before, after, hnames, hbefore⟩ := List.find?_eq_some_iff_append.1 h
    refine ⟨before, name, after, hnames, fun m hm => ?_, Option.isNone_iff_eq_none.1 hnone⟩
    simpa using hbefore m hm

/-! ## The grammar -/

section

variable {source : String}

theorem parse_of_chars {g : Reading} (h : g.chars = source.toList) :
    parse source = .ok g.template := by
  rw [parse, ← h, ofChars_chars]

theorem parse_of_flawed {shown : List Char} (h : Flawed source.toList shown) :
    parse source = .error (.unresolvedSlot (String.ofList shown)) :=
  h.ofChars_eq

theorem exists_chars_eq_of_parse {t : Template} (h : parse source = .ok t) :
    ∃ g : Reading, g.chars = source.toList ∧ g.template = t := by
  rcases exists_reading_or_flawed source.toList with ⟨g, hg⟩ | ⟨shown, hflawed⟩
  · exact ⟨g, hg, Except.ok.inj ((parse_of_chars hg).symm.trans h)⟩
  · rw [parse_of_flawed hflawed] at h
    cases h

/-- A source that is no template has a flaw, and the flaw is what is reported. -/
theorem parse_eq_error_iff {e : Fault} : parse source = .error e ↔
    ∃ shown, Flawed source.toList shown ∧ e = .unresolvedSlot (String.ofList shown) := by
  constructor
  · intro h
    rcases exists_reading_or_flawed source.toList with ⟨g, hg⟩ | ⟨shown, hflawed⟩
    · rw [parse_of_chars hg] at h
      cases h
    · exact ⟨shown, hflawed, (Except.error.inj ((parse_of_flawed hflawed).symm.trans h)).symm⟩
  · rintro ⟨shown, hflawed, rfl⟩
    exact parse_of_flawed hflawed

theorem supplant_of_parse {t : Template} (h : parse source = .ok t) (bs : Bindings) :
    supplant source bs = t.render bs := by
  rw [supplant, h]
  rfl

theorem supplant_of_parse_error {e : Fault} (h : parse source = .error e) (bs : Bindings) :
    supplant source bs = .error e := by
  rw [supplant, h]
  rfl

theorem exists_supplant_eq_ok_iff {bs : Bindings} : (∃ out, supplant source bs = .ok out) ↔
    ∃ g : Reading, g.chars = source.toList ∧ ∀ name ∈ g.names, (bs.get? name).isSome := by
  constructor
  · rintro ⟨out, hout⟩
    cases hparse : parse source with
    | error e => rw [supplant_of_parse_error hparse] at hout; cases hout
    | ok t =>
      obtain ⟨g, hg, rfl⟩ := exists_chars_eq_of_parse hparse
      refine ⟨g, hg, ?_⟩
      rcases all_bound_or_first_unbound bs g.names with
        hbound | ⟨before, name, after, hnames, hbefore, hname⟩
      · exact hbound
      · rw [supplant_of_parse hparse,
          render_eq_error (g.tokens_template.trans hnames) hbefore hname] at hout
        cases hout
  · rintro ⟨g, hg, hbound⟩
    refine ⟨String.ofList (g.fill fun name => (bs.get? name).getD ""), ?_⟩
    rw [supplant_of_parse (parse_of_chars hg)]
    apply Reading.render_template
    intro name hn
    obtain ⟨value, hvalue⟩ := Option.isSome_iff_exists.1 (hbound name hn)
    rw [hvalue, Option.getD_some]

/-- What a source gives that is written as `g`. -/
structure Reading.Governs (g : Reading) (source : String) : Prop where
  /-- The source is written in no other way. -/
  unique : ∀ k : Reading, k.chars = source.toList → k = g
  /-- It is read as a template with the slots of `g`. -/
  parse : ∃ t, parse source = .ok t ∧ t.tokens = g.names
  /-- With values for all slots it becomes the texts of `g` with the values between them. -/
  bound : ∀ (bs : Bindings) (value : String → String),
    (∀ name ∈ g.names, bs.get? name = some (value name)) →
      supplant source bs = .ok (String.ofList (g.fill value))
  /-- The first slot without a value is reported. -/
  unbound : ∀ (bs : Bindings) (before : List String) (name : String) (after : List String),
    g.names = before ++ name :: after → (∀ m ∈ before, (bs.get? m).isSome) → bs.get? name = none →
      supplant source bs = .error (.unresolvedSlot name)

theorem Reading.governs {g : Reading} (h : g.chars = source.toList) : g.Governs source where
  unique _ hk := chars_injective (hk.trans h.symm)
  parse := ⟨g.template, parse_of_chars h, g.tokens_template⟩
  bound bs value hbound := by
    rw [supplant_of_parse (parse_of_chars h), render_template hbound]
  unbound bs before name after hnames hbefore hname := by
    rw [supplant_of_parse (parse_of_chars h)]
    exact render_eq_error (g.tokens_template.trans hnames) hbefore hname

end

/-- A source is a template exactly if it is written by the grammar, in one way and then with the
slots of this way; it can be rendered exactly if these are all bound.  A source that is not written
by the grammar is reported with its flaw whatever values there are. -/
theorem supplant_grammar (source : String) :
    ((∃ t, parse source = .ok t) ↔ ∃ g : Reading, g.chars = source.toList) ∧
      (∀ g : Reading, g.chars = source.toList → g.Governs source) ∧
      (∀ bs, (∃ out, supplant source bs = .ok out) ↔
        ∃ g : Reading, g.chars = source.toList ∧ ∀ name ∈ g.names, (bs.get? name).isSome) ∧
      (∀ e, parse source = .error e ↔
        ∃ shown, Flawed source.toList shown ∧ e = .unresolvedSlot (String.ofList shown)) ∧
      ∀ shown, Flawed source.toList shown →
        ∀ bs, supplant source bs = .error (.unresolvedSlot (String.ofList shown)) := by
  refine ⟨⟨?_, ?_⟩, fun g hg => Reading.governs hg, fun bs => exists_supplant_eq_ok_iff,
    fun e => parse_eq_error_iff, ?_⟩
  · rintro ⟨t, ht⟩
    obtain ⟨g, hg, -⟩ := exists_chars_eq_of_parse ht
    exact ⟨g, hg⟩
  · rintro ⟨g, hg⟩
    exact ⟨g.template, parse_of_chars hg⟩
  · intro shown hflawed bs
    exact supplant_of_parse_error (parse_of_flawed hflawed) bs

/-- A value is copied with its braces, between braces of the text. -/
example : supplant "\x7b \x7b\x7b a\n\x7d\x7d\x7d" [("a", "\x7b\x7ba\x7d\x7d")] =
    .ok "\x7b \x7b\x7ba\x7d\x7d\x7d" := by cbv

end SiteScript.Template
