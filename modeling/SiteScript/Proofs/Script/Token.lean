import SiteScript.Proofs.Script.Literal
import SiteScript.Proofs.Text.Lines

/-!
# Tokens of a script

The string literals of a script are tokens, and so is every character outside them.  `Token.lex` takes
a text apart; it refuses a text with a literal that is not closed on its line, or with a character that
could begin a comment, a regular expression or a template.  `Token.text` writes tokens, and `lex_text`
says that plain tokens are read back.  The *outline* of a token leaves the contents of literals out.
-/

namespace SiteScript

/-- A string literal, with the text that it stands for, or a character outside string literals. -/
inductive Token where
  | mark (c : Char)
  | literal (quote : Char) (value : String)
deriving DecidableEq, Repr

namespace Token

/-- The characters that begin a literal or may begin a comment, a regular expression or a template. -/
def isSpecial (c : Char) : Bool :=
  c = '\'' || c = '"' || c = '\x60' || c = '/'

/-- The tokens of a text. -/
def lex : List Char → Option (List Token)
  | [] => some []
  | c :: cs =>
    if Literal.IsQuote c then
      match _h : Literal.read c cs with
      | none => none
      | some (value, rest) => (lex rest).map fun ts => .literal c (String.ofList value) :: ts
    else if isSpecial c then none
    else (lex cs).map fun ts => .mark c :: ts
termination_by cs => cs.length
decreasing_by
  · have := Literal.length_lt_of_read _h
    simp only [List.length_cons]
    omega
  · simp

/-- The token without the content of a literal. -/
def outline : Token → Token
  | mark c => mark c
  | literal quote _ => literal quote ""

/-- The text that a literal stands for. -/
def value? : Token → Option String
  | mark _ => none
  | literal _ value => some value

/-- The texts that the literals among some tokens stand for. -/
def values (ts : List Token) : List String :=
  ts.filterMap value?

/-! ## Writing tokens -/

/-- The characters of a token. -/
def chars : Token → List Char
  | mark c => [c]
  | literal quote value => Literal.text quote value

/-- The text of some tokens. -/
def text (ts : List Token) : List Char :=
  ts.flatMap chars

/-- A token that `lex` takes for what it is, and that ends no line unless it is a line feed. -/
def Plain : Token → Prop
  | mark c => isSpecial c = false ∧ (c = '\n' ∨ Literal.isTerminator c = false)
  | literal quote _ => Literal.IsQuote quote

instance (t : Token) : Decidable t.Plain := by
  cases t <;> unfold Plain <;> infer_instance

/-- The tokens of a text without literals. -/
def marks (cs : List Char) : List Token :=
  cs.map mark

theorem text_append (ts us : List Token) : text (ts ++ us) = text ts ++ text us :=
  List.flatMap_append

theorem text_cons (t : Token) (ts : List Token) : text (t :: ts) = t.chars ++ text ts :=
  List.flatMap_cons

theorem text_marks (cs : List Char) : text (marks cs) = cs := by
  induction cs with
  | nil => rfl
  | cons c cs ih =>
    rw [marks, List.map_cons, text_cons, ← marks, ih]
    rfl

theorem Plain.terminator {t : Token} (h : t.Plain) :
    ∀ c ∈ t.chars, c = '\n' ∨ Literal.isTerminator c = false := by
  cases t with
  | mark c =>
    intro d hd
    rw [chars, List.mem_singleton] at hd
    rw [hd]
    exact h.2
  | literal quote value => exact fun c hc => .inr (Literal.isTerminator_of_mem_text h hc)

/-- The text of plain tokens has no line terminator besides line feeds. -/
theorem terminator_of_mem_text {ts : List Token} (h : ∀ t ∈ ts, t.Plain) :
    ∀ c ∈ text ts, c = '\n' ∨ Literal.isTerminator c = false := by
  intro c hc
  obtain ⟨t, ht, hct⟩ := List.mem_flatMap.1 hc
  exact (h t ht).terminator c hct

theorem chars_ne_nil (t : Token) : t.chars ≠ [] := by
  cases t <;> exact List.cons_ne_nil _ _

theorem text_eq_nil_iff {ts : List Token} : text ts = [] ↔ ts = [] := by
  cases ts with
  | nil => exact ⟨fun _ => rfl, fun _ => rfl⟩
  | cons t ts =>
    rw [text_cons, List.append_eq_nil_iff]
    exact ⟨fun h => absurd h.1 t.chars_ne_nil, nofun⟩

theorem not_isQuote_of_isSpecial {c : Char} (h : isSpecial c = false) : ¬ Literal.IsQuote c := by
  rintro (rfl | rfl) <;> exact absurd h (by decide)

/-- Plain tokens are read back from their text. -/
theorem lex_text {ts : List Token} (h : ∀ t ∈ ts, t.Plain) : lex (text ts) = some ts := by
  induction ts with
  | nil => rw [text, List.flatMap_nil, lex]
  | cons t ts ih =>
    have ht : t.Plain := h t List.mem_cons_self
    have hts := ih fun u hu => h u (List.mem_cons_of_mem _ hu)
    rw [text_cons]
    cases t with
    | mark c =>
      have hc : isSpecial c = false := ht.1
      rw [chars, List.singleton_append, lex, if_neg (not_isQuote_of_isSpecial hc),
        if_neg (by rw [hc]; decide), hts]
      rfl
    | literal quote value =>
      have hq : Literal.IsQuote quote := ht
      have hread := Literal.read_written hq value.toList (text ts)
      rw [chars, Literal.text, List.cons_append, List.cons_append, List.append_assoc,
        List.singleton_append, lex, if_pos hq]
      split
      · rename_i hnone
        rw [hread] at hnone
        cases hnone
      · rename_i v rest hsome
        rw [hread] at hsome
        cases hsome
        rw [hts, String.ofList_toList]
        rfl

/-! ## Outlines and values -/

theorem values_append (ts us : List Token) : values (ts ++ us) = values ts ++ values us :=
  List.filterMap_append

theorem values_marks (cs : List Char) : values (marks cs) = [] := by
  induction cs with
  | nil => rfl
  | cons c cs ih => exact ih

theorem plain_outline_iff {t : Token} : t.outline.Plain ↔ t.Plain := by
  cases t <;> rfl

/-! ## Lists with separators -/

/-- What is made of a list piece by piece can be made of each part between separators. -/
theorem map_intercalate {α β : Type} {g : List α → List β} (hnil : g [] = [])
    (happend : ∀ xs ys, g (xs ++ ys) = g xs ++ g ys) (sep : List α) (ls : List (List α)) :
    g (sep.intercalate ls) = (g sep).intercalate (ls.map g) := by
  induction ls with
  | nil => exact hnil
  | cons l ls ih =>
    cases ls with
    | nil => rw [List.intercalate_singleton, List.map_singleton, List.intercalate_singleton]
    | cons m ls =>
      rw [List.intercalate_cons_cons, happend, happend, ih, List.map_cons, List.map_cons,
        List.map_cons, List.intercalate_cons_cons]

/-- What holds of the parts of a list and of what is put together holds of parts with separators. -/
theorem intercalate_of_append {α : Type} {P : List α → Prop} (hnil : P [])
    (happend : ∀ xs ys, P xs → P ys → P (xs ++ ys)) {sep : List α} (hsep : P sep)
    {ls : List (List α)} (h : ∀ l ∈ ls, P l) : P (sep.intercalate ls) := by
  induction ls with
  | nil => exact hnil
  | cons l ls ih =>
    obtain ⟨hl, hls⟩ := List.forall_mem_cons.1 h
    cases ls with
    | nil => rwa [List.intercalate_singleton]
    | cons m ls =>
      rw [List.intercalate_cons_cons]
      exact happend _ _ (happend _ _ hl hsep) (ih hls)

theorem nil_intercalate {α : Type} (ls : List (List α)) : [].intercalate ls = ls.flatten := by
  induction ls with
  | nil => rfl
  | cons l ls ih =>
    cases ls with
    | nil => rw [List.intercalate_singleton, List.flatten_singleton]
    | cons m ls => simp [List.intercalate_cons_cons, ih]

section

variable {sep : List Token}

theorem text_intercalate (ls : List (List Token)) :
    text (sep.intercalate ls) = (text sep).intercalate (ls.map text) :=
  map_intercalate rfl text_append sep ls

theorem mem_intercalate {ls : List (List Token)} {t : Token} (h : t ∈ sep.intercalate ls) :
    t ∈ sep ∨ ∃ l ∈ ls, t ∈ l := by
  induction ls with
  | nil => cases h
  | cons l ls ih =>
    cases ls with
    | nil =>
      rw [List.intercalate_singleton] at h
      exact .inr ⟨l, List.mem_cons_self, h⟩
    | cons m ls =>
      rw [List.intercalate_cons_cons, List.mem_append, List.mem_append] at h
      obtain (h | h) | h := h
      · exact .inr ⟨l, List.mem_cons_self, h⟩
      · exact .inl h
      · exact (ih h).imp_right fun ⟨n, hn, h⟩ => ⟨n, List.mem_cons_of_mem _ hn, h⟩

theorem infix_intercalate {ls : List (List Token)} {l : List Token} (h : l ∈ ls) :
    l <:+: sep.intercalate ls := by
  induction ls with
  | nil => cases h
  | cons m ls ih =>
    cases ls with
    | nil =>
      have hself : sep.intercalate [m] = l := by
        rw [List.intercalate_singleton, List.mem_singleton.1 h]
      exact hself.symm ▸ List.infix_rfl
    | cons n ls =>
      rw [List.intercalate_cons_cons]
      obtain rfl | h := List.mem_cons.1 h
      · rw [List.append_assoc]
        exact (List.prefix_append _ _).isInfix
      · exact (ih h).trans (List.suffix_append _ _).isInfix

theorem map_outline_intercalate (ls : List (List Token)) :
    (sep.intercalate ls).map outline =
      (sep.map outline).intercalate (ls.map (List.map outline)) :=
  map_intercalate rfl (fun _ _ => List.map_append) sep ls

/-- Items whose tokens are the same but for the contents of literals: only their number matters. -/
theorem map_outline_intercalate_map {α : Type} {g : α → List Token} {blank : List Token}
    (h : ∀ x, (g x).map outline = blank) (xs : List α) :
    (sep.intercalate (xs.map g)).map outline =
      (sep.map outline).intercalate (List.replicate xs.length blank) := by
  have hmap : List.map outline ∘ g = fun _ => blank := funext h
  rw [map_outline_intercalate, List.map_map, hmap, List.map_const']

theorem values_intercalate (hsep : values sep = []) (ls : List (List Token)) :
    values (sep.intercalate ls) = ls.flatMap values := by
  rw [map_intercalate rfl values_append, hsep, nil_intercalate, List.flatMap]

end

end Token

end SiteScript
