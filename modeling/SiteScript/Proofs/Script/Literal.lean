import Mathlib.Tactic.SplitIfs
import SiteScript.Json.Printer
import SiteScript.Script.Layout
import SiteScript.Step.Emission

/-!
# Reading string literals

`Literal.read` reads a string literal of a script from behind its opening quote: it answers the text
that the literal stands for and what follows the closing quote.  `Literal.Writes` lists the ways of
writing one character in a literal.  Both writers of the library, `Literal.escapeChar` between single
quotes and `Literal.jsonChar` between double quotes, write every character in such a way, so that
reading (`read_append`) and scanning (`scan_append`) go through a written text to its closing quote.
-/

namespace SiteScript.Literal

/-! ## Reading -/

/-- The characters that end a line of a script; a literal does not hold them as they are. -/
def isTerminator (c : Char) : Bool :=
  c = '\n' || c = '\r' || c = '\u2028' || c = '\u2029'

theorem isTerminator_iff {c : Char} :
    isTerminator c = true ↔ c = '\n' ∨ c = '\r' ∨ c = '\u2028' ∨ c = '\u2029' := by
  simp only [isTerminator, Bool.or_eq_true, decide_eq_true_eq, or_assoc]

/-- The character that a backslash and one character stand for.  Digits and `x` would begin an escape
of several characters, which the scripts never need. -/
def shortEscape? (x : Char) : Option Char :=
  if x = 'n' then some '\n'
  else if x = 'r' then some '\r'
  else if x = 't' then some '\t'
  else if x = 'b' then some '\x08'
  else if x = 'f' then some '\x0c'
  else if x = 'v' then some '\x0b'
  else if isTerminator x || x.isDigit || x = 'u' || x = 'x' then none
  else some x

/-- The character that four hexadecimal digits stand for. -/
def hexChar? (ds : List Char) : Option Char :=
  match ds.mapM Json.hexValue? with
  | some [a, b, c, d] =>
    let n := 4096 * a + 256 * b + 16 * c + d
    if n.isValidChar then some (Char.ofNat n) else none
  | _ => none

/-- The character that an escape stands for, and what follows the escape. -/
def readEscape : List Char → Option (Char × List Char)
  | 'u' :: a :: b :: c :: d :: cs => (hexChar? [a, b, c, d]).map fun x => (x, cs)
  | x :: cs => (shortEscape? x).map fun y => (y, cs)
  | [] => none

theorem length_lt_of_readEscape {cs rest : List Char} {x : Char}
    (h : readEscape cs = some (x, rest)) : rest.length < cs.length := by
  unfold readEscape at h
  split at h
  · obtain ⟨y, -, hy⟩ := Option.map_eq_some_iff.1 h
    cases hy
    simp only [List.length_cons]
    omega
  · obtain ⟨y, -, hy⟩ := Option.map_eq_some_iff.1 h
    cases hy
    simp only [List.length_cons]
    omega
  · cases h

/-- Read a literal from behind its opening quote. -/
def read (quote : Char) : List Char → Option (List Char × List Char)
  | [] => none
  | c :: cs =>
    if c = quote then some ([], cs)
    else if isTerminator c then none
    else if c = '\\' then
      match _h : readEscape cs with
      | none => none
      | some (x, rest) => (read quote rest).map fun p => (x :: p.1, p.2)
    else (read quote cs).map fun p => (c :: p.1, p.2)
termination_by cs => cs.length
decreasing_by
  · have := length_lt_of_readEscape _h
    simp only [List.length_cons]
    omega
  · simp

theorem length_lt_of_read {quote : Char} {cs value rest : List Char}
    (h : read quote cs = some (value, rest)) : rest.length < cs.length := by
  fun_induction read quote cs generalizing value with
  | case1 => cases h
  | case2 => cases h; simp
  | case3 => cases h
  | case4 => cases h
  | case5 cs x rest' hx _ _ ih =>
    obtain ⟨p, hp, he⟩ := Option.map_eq_some_iff.1 h
    cases he
    have := ih hp
    have := length_lt_of_readEscape hx
    simp only [List.length_cons]
    omega
  | case6 c cs _ _ _ ih =>
    obtain ⟨p, hp, he⟩ := Option.map_eq_some_iff.1 h
    cases he
    have := ih hp
    simp only [List.length_cons]
    omega

/-! ## Writing -/

/-- A single or a double quote, with which a string literal begins and ends. -/
def IsQuote (quote : Char) : Prop := quote = '\'' ∨ quote = '"'

instance (quote : Char) : Decidable (IsQuote quote) := by
  unfold IsQuote
  infer_instance

/-- The ways of writing a character in a literal: as it is, by a backslash and one character, or by its
number in hexadecimal digits. -/
inductive Writes (quote : Char) : Char → List Char → Prop
  | plain {c : Char} (hq : c ≠ quote) (hb : c ≠ '\\') (ht : isTerminator c = false) :
      Writes quote c [c]
  | short {c x : Char} (hx : shortEscape? x = some c) : Writes quote c ['\\', x]
  | hex {x a b c d : Char} (hx : hexChar? [a, b, c, d] = some x) :
      Writes quote x ['\\', 'u', a, b, c, d]

theorem isTerminator_of_shortEscape? {x c : Char} (h : shortEscape? x = some c) :
    isTerminator x = false := by
  rcases hx : isTerminator x with _ | _
  · rfl
  · obtain rfl | rfl | rfl | rfl := isTerminator_iff.1 hx
    all_goals cases h

theorem readEscape_of_shortEscape? {x c : Char} (h : shortEscape? x = some c) (rest : List Char) :
    readEscape (x :: rest) = some (c, rest) := by
  have hu : x ≠ 'u' := by
    rintro rfl
    cases h
  rw [readEscape, h]
  · rfl
  · intro _ _ _ _ _ hx
    exact absurd hx hu

theorem hexValue?_of_hexChar? {x a b c d : Char} (h : hexChar? [a, b, c, d] = some x) :
    ∀ y ∈ [a, b, c, d], (Json.hexValue? y).isSome := by
  unfold hexChar? at h
  split at h
  · rename_i hm
    simp only [List.mapM_cons, List.mapM_nil, Option.bind_eq_bind, Option.bind_eq_some_iff] at hm
    obtain ⟨_, ha, _, ⟨_, hb, _, ⟨_, hc, _, ⟨_, hd, -⟩, -⟩, -⟩, -⟩ := hm
    simp [ha, hb, hc, hd]
  · cases h

/-- A hexadecimal digit is neither a quote nor a backslash nor a line terminator. -/
theorem ordinary_of_hexValue? {d : Char} (h : (Json.hexValue? d).isSome) :
    ¬ IsQuote d ∧ d ≠ '\\' ∧ isTerminator d = false := by
  refine ⟨?_, ?_, ?_⟩
  · rintro (rfl | rfl) <;> exact absurd h (by decide)
  · rintro rfl
    exact absurd h (by decide)
  · rcases hd : isTerminator d with _ | _
    · rfl
    · obtain rfl | rfl | rfl | rfl := isTerminator_iff.1 hd
      all_goals exact absurd h (by decide)

theorem read_backslash {quote : Char} (hq : IsQuote quote) (cs : List Char) :
    read quote ('\\' :: cs) =
      (readEscape cs).bind fun e => (read quote e.2).map fun p => (e.1 :: p.1, p.2) := by
  have hne : '\\' ≠ quote := by
    rintro rfl
    exact absurd hq (by decide)
  rw [read, if_neg hne, if_neg (by decide), if_pos rfl]
  split
  · rename_i h
    rw [h]
    rfl
  · rename_i h
    rw [h]
    rfl

namespace Writes

variable {quote c : Char} {xs : List Char}

/-- Reading a written character answers that character. -/
theorem read_append (h : Writes quote c xs) (hq : IsQuote quote) (rest : List Char) :
    read quote (xs ++ rest) = (read quote rest).map fun p => (c :: p.1, p.2) := by
  cases h with
  | plain hc hb ht =>
    rw [List.singleton_append, read, if_neg hc, if_neg (by simp [ht]), if_neg hb]
  | short hx =>
    rw [List.cons_append, List.singleton_append, read_backslash hq, readEscape_of_shortEscape? hx]
    rfl
  | hex hx =>
    simp only [List.cons_append, List.nil_append]
    rw [read_backslash hq, readEscape, hx]
    rfl

theorem scan_append (h : Writes quote c xs) (hq : IsQuote quote) (level : Nat)
    (stack : List Layout.Opened) (rest : List Char) :
    Layout.scan level (.string quote) stack (xs ++ rest) =
      Layout.scan level (.string quote) stack rest := by
  have hplain (d : Char) (hd : d ≠ quote) (hb : d ≠ '\\') (cs : List Char) :
      Layout.scan level (.string quote) stack (d :: cs) =
        Layout.scan level (.string quote) stack cs := by
    rw [Layout.scan, Layout.stringMode, if_neg hb, if_neg hd]
  cases h with
  | plain hc hb _ => exact hplain c hc hb rest
  | short hx =>
    rw [List.cons_append, List.singleton_append, Layout.scan, Layout.stringMode, if_pos rfl,
      Layout.scan]
  | @hex a b d e hx =>
    have hdigit (y : Char) (hy : y ∈ [a, b, d, e]) : y ≠ quote ∧ y ≠ '\\' := by
      have ho := ordinary_of_hexValue? (hexValue?_of_hexChar? hx y hy)
      exact ⟨fun he => ho.1 (he ▸ hq), ho.2.1⟩
    simp only [List.cons_append, List.nil_append]
    rw [Layout.scan, Layout.stringMode, if_pos rfl, Layout.scan,
      hplain a (hdigit a (by simp)).1 (hdigit a (by simp)).2,
      hplain b (hdigit b (by simp)).1 (hdigit b (by simp)).2,
      hplain d (hdigit d (by simp)).1 (hdigit d (by simp)).2,
      hplain e (hdigit e (by simp)).1 (hdigit e (by simp)).2]

theorem isTerminator_eq_false (h : Writes quote c xs) : ∀ x ∈ xs, isTerminator x = false := by
  cases h with
  | plain _ _ ht => simpa using ht
  | short hx => simpa using ⟨by decide, isTerminator_of_shortEscape? hx⟩
  | hex hx =>
    have hdigits := fun y hy => (ordinary_of_hexValue? (hexValue?_of_hexChar? hx y hy)).2.2
    intro y hy
    rw [List.mem_cons, List.mem_cons] at hy
    obtain rfl | rfl | hy := hy
    · decide
    · decide
    · exact hdigits y hy

end Writes

/-! ## The two writers -/

theorem isTerminator_of_ne {c : Char} (hn : c ≠ '\n') (hr : c ≠ '\r') (h28 : c ≠ '\u2028')
    (h29 : c ≠ '\u2029') : isTerminator c = false := by
  simp [isTerminator, hn, hr, h28, h29]

theorem writes_escapeChar (c : Char) : Writes '\'' c (escapeChar c) := by
  unfold escapeChar
  split_ifs with hb hq hn hr h28 h29
  · subst hb
    exact .short (by decide)
  · subst hq
    exact .short (by decide)
  · subst hn
    exact .short (by decide)
  · subst hr
    exact .short (by decide)
  · subst h28
    exact .hex (by decide)
  · subst h29
    exact .hex (by decide)
  · exact .plain hq hb (isTerminator_of_ne hn hr h28 h29)

/-- How a string in the list of fields shows one character. -/
def jsonChar (c : Char) : List Char :=
  spellSeparators (Json.escapeChar c)

/-- The controls that have no escape of their own are written by their number. -/
theorem control_digits : ∀ n < 32,
    let ds := ['0', '0', Json.hexDigit (n / 16), Json.hexDigit (n % 16)]
    spellSeparators ('\\' :: 'u' :: ds) = '\\' :: 'u' :: ds ∧ hexChar? ds = some (Char.ofNat n) := by
  decide

/-- Only the two separators are written in another way than in JSON text. -/
theorem jsonChar_eq_escapeChar {c : Char} (h28 : c ≠ '\u2028') (h29 : c ≠ '\u2029') :
    jsonChar c = Json.escapeChar c := by
  unfold jsonChar Json.escapeChar
  split_ifs with hq hb h8 hc hn hr ht hlt
  · decide
  · decide
  · decide
  · decide
  · decide
  · decide
  · decide
  · exact (control_digits c.toNat hlt).1
  · rw [spellSeparators, List.flatMap_singleton, if_neg h28, if_neg h29]

/-- No control stands in a written string as it is. -/
theorem le_toNat_of_mem_jsonChar {c x : Char} (h : x ∈ jsonChar c) : 0x20 ≤ x.toNat := by
  have hspecial : (['"', '\\', '\u2028', '\u2029'].flatMap jsonChar).all
      (fun y => 0x20 ≤ y.toNat) = true := by decide
  have hcontrol : ∀ n < 0x20, (jsonChar (Char.ofNat n)).all (fun y => 0x20 ≤ y.toNat) = true := by
    decide
  by_cases hc : c ∈ ['"', '\\', '\u2028', '\u2029']
  · exact of_decide_eq_true (List.all_eq_true.1 hspecial x (List.mem_flatMap.2 ⟨c, hc, h⟩))
  by_cases hlt : c < ' '
  · rw [← Char.ofNat_toNat c] at h
    exact of_decide_eq_true (List.all_eq_true.1 (hcontrol c.toNat hlt) x h)
  · simp only [List.mem_cons, List.not_mem_nil, or_false, not_or] at hc
    obtain ⟨hq, hb, h28, h29⟩ := hc
    have hcontrols (d : Char) (hd : d < ' ') : c ≠ d := fun heq => hlt (heq ▸ hd)
    rw [jsonChar_eq_escapeChar h28 h29, Json.escapeChar, if_neg hq, if_neg hb,
      if_neg (hcontrols _ (by decide)), if_neg (hcontrols _ (by decide)),
      if_neg (hcontrols _ (by decide)), if_neg (hcontrols _ (by decide)),
      if_neg (hcontrols _ (by decide)), if_neg hlt, List.mem_singleton] at h
    rw [h]
    exact Nat.not_lt.1 hlt

theorem writes_jsonChar (c : Char) : Writes '"' c (jsonChar c) := by
  by_cases h28 : c = '\u2028'
  · subst h28
    have hspelled : jsonChar '\u2028' = ['\\', 'u', '2', '0', '2', '8'] := by decide
    rw [hspelled]
    exact .hex (by decide)
  by_cases h29 : c = '\u2029'
  · subst h29
    have hspelled : jsonChar '\u2029' = ['\\', 'u', '2', '0', '2', '9'] := by decide
    rw [hspelled]
    exact .hex (by decide)
  rw [jsonChar_eq_escapeChar h28 h29]
  unfold Json.escapeChar
  split_ifs with hq hb h8 hc hn hr ht hlt
  · subst hq
    exact .short (by decide)
  · subst hb
    exact .short (by decide)
  · subst h8
    exact .short (by decide)
  · subst hc
    exact .short (by decide)
  · subst hn
    exact .short (by decide)
  · subst hr
    exact .short (by decide)
  · subst ht
    exact .short (by decide)
  · have hvalue := (control_digits c.toNat hlt).2
    rw [Char.ofNat_toNat] at hvalue
    exact .hex hvalue
  · exact .plain hq hb (isTerminator_of_ne hn hr h28 h29)

/-- How a literal shows one character: the list of fields uses double quotes, all else single ones. -/
def written (quote c : Char) : List Char :=
  if quote = '"' then jsonChar c else escapeChar c

theorem writes_written {quote : Char} (hq : IsQuote quote) (c : Char) :
    Writes quote c (written quote c) := by
  obtain rfl | rfl := hq
  · exact writes_escapeChar c
  · exact writes_jsonChar c

/-- A text as a literal. -/
def text (quote : Char) (s : String) : List Char :=
  quote :: s.toList.flatMap (written quote) ++ [quote]

theorem toList_quote (s : String) : (quote s).toList = text '\'' s := by
  simp only [quote, escape, String.toList_append, String.toList_ofList]
  rfl

theorem spellSeparators_append (as bs : List Char) :
    spellSeparators (as ++ bs) = spellSeparators as ++ spellSeparators bs :=
  List.flatMap_append

theorem spellSeparators_quoted (s : String) : spellSeparators (Json.quoted s) = text '"' s := by
  have hflat : spellSeparators (Json.escape s.toList) = s.toList.flatMap (written '"') :=
    List.flatMap_assoc
  rw [Json.quoted, spellSeparators_append, ← List.singleton_append, spellSeparators_append, hflat]
  rfl

section

variable {quote : Char} (hq : IsQuote quote)

include hq

/-- A written text reads back, whatever follows its closing quote. -/
theorem read_written (s rest : List Char) :
    read quote (s.flatMap (written quote) ++ quote :: rest) = some (s, rest) := by
  induction s with
  | nil =>
    rw [List.flatMap_nil, List.nil_append, read, if_pos rfl]
  | cons c s ih =>
    rw [List.flatMap_cons, List.append_assoc, (writes_written hq c).read_append hq, ih]
    rfl

theorem scan_written (level : Nat) (stack : List Layout.Opened) (s rest : List Char) :
    Layout.scan level (.string quote) stack (s.flatMap (written quote) ++ rest) =
      Layout.scan level (.string quote) stack rest := by
  induction s with
  | nil => rfl
  | cons c s ih =>
    rw [List.flatMap_cons, List.append_assoc, (writes_written hq c).scan_append hq, ih]

/-- The scanner passes over a literal. -/
theorem scan_text (level : Nat) (stack : List Layout.Opened) (s : String) (rest : List Char) :
    Layout.scan level .code stack (text quote s ++ rest) =
      Layout.scan level .code stack rest := by
  have hopen (cs : List Char) : Layout.scan level .code stack (quote :: cs) =
      Layout.scan level (.string quote) stack cs := by
    obtain rfl | rfl := hq <;> rfl
  have hclose : Layout.stringMode quote quote = .code := by
    obtain rfl | rfl := hq <;> rfl
  rw [text, List.cons_append, List.cons_append, hopen, List.append_assoc, scan_written hq,
    List.singleton_append, Layout.scan, hclose]

theorem isTerminator_of_mem_text {s : String} {c : Char} (h : c ∈ text quote s) :
    isTerminator c = false := by
  have hquote : isTerminator quote = false := by
    obtain rfl | rfl := hq <;> rfl
  rw [text, List.mem_append, List.mem_cons, List.mem_singleton, List.mem_flatMap] at h
  obtain (rfl | ⟨x, -, hx⟩) | rfl := h
  · exact hquote
  · exact (writes_written hq x).isTerminator_eq_false c hx
  · exact hquote

end

end SiteScript.Literal
