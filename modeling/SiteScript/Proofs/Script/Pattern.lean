import SiteScript.Proofs.Script.Block
import SiteScript.Script.Template

/-!
# Tokens of a template

`Part.read` takes a template apart into tokens without its values: a slot stands either within a
string literal, where its value is a user's text, or in the code, where its value is tokens.  A template
that is read in this way renders to the text of the same tokens whatever the values are
(`render_eq_text`), and what the tokens are but for the contents of literals does not depend on them
(`map_outline_fill`).  `readsAs` is the check of a template on which the facts about scripts rest.
-/

namespace SiteScript.Template

/-! ## Symbols -/

/-- A character or a slot of a template. -/
inductive Symbol where
  | char (c : Char)
  | slot (name : String)
deriving DecidableEq, Repr

/-- The symbols of a piece. -/
def pieceSymbols : Piece → List Symbol
  | .text content => content.toList.map .char
  | .slot name => [.slot name]

/-- The symbols of a template. -/
def symbols (t : Template) : List Symbol :=
  t.flatMap pieceSymbols

/-- The characters of a symbol when the slots have values. -/
def Symbol.chars (bs : Bindings) : Symbol → List Char
  | char c => [c]
  | slot name => ((bs.get? name).getD "").toList

theorem flatMap_chars_map_char (bs : Bindings) (cs : List Char) :
    (cs.map Symbol.char).flatMap (Symbol.chars bs) = cs := by
  induction cs with
  | nil => rfl
  | cons c cs ih =>
    rw [List.map_cons, List.flatMap_cons, ih]
    rfl

theorem renderPiece_eq {bs : Bindings} {p : Piece}
    (h : ∀ name, .slot name ∈ pieceSymbols p → (bs.get? name).isSome) :
    renderPiece bs p = .ok (String.ofList ((pieceSymbols p).flatMap (Symbol.chars bs))) := by
  cases p with
  | text content =>
    rw [pieceSymbols, flatMap_chars_map_char, String.ofList_toList]
    rfl
  | slot name =>
    obtain ⟨value, hvalue⟩ := Option.isSome_iff_exists.1 (h name (List.mem_singleton_self _))
    rw [renderPiece, pieceSymbols, List.flatMap_singleton, Symbol.chars, hvalue]
    exact congrArg Except.ok String.ofList_toList.symm

theorem join_cons (s : String) (ss : List String) : String.join (s :: ss) = s ++ String.join ss := by
  apply String.toList_inj.1
  simp only [String.toList_join, List.flatMap_cons, String.toList_append]

theorem slot_mem_symbols_iff {name : String} {t : Template} :
    .slot name ∈ t.symbols ↔ name ∈ t.tokens := by
  rw [symbols, List.mem_flatMap, tokens, List.mem_filterMap]
  refine exists_congr fun p => and_congr_right fun _ => ?_
  cases p with
  | text content => simp [pieceSymbols]
  | slot n => simp [pieceSymbols, eq_comm]

/-- A template all slots of which have values is rendered symbol by symbol. -/
theorem render_eq {t : Template} {bs : Bindings}
    (h : ∀ name, .slot name ∈ t.symbols → (bs.get? name).isSome) :
    t.render bs = .ok (String.ofList (t.symbols.flatMap (Symbol.chars bs))) := by
  induction t with
  | nil => rfl
  | cons p t ih =>
    have hp := renderPiece_eq fun name hn => h name (List.mem_append_left _ hn)
    have ht := ih fun name hn => h name (List.mem_append_right _ hn)
    obtain ⟨ss, hss, hjoin⟩ : ∃ ss, t.mapM (renderPiece bs) = .ok ss ∧
        String.join ss = String.ofList ((symbols t).flatMap (Symbol.chars bs)) := by
      rw [render] at ht
      cases hss : t.mapM (renderPiece bs) with
      | error e => rw [hss] at ht; cases ht
      | ok ss =>
        rw [hss] at ht
        exact ⟨ss, rfl, Except.ok.inj ht⟩
    rw [render, List.mapM_cons, hp, hss]
    refine congrArg Except.ok ?_
    rw [join_cons, hjoin, ← String.ofList_append, ← List.flatMap_append]
    rfl

/-- What the lines of a template become. -/
def lineChars (bs : Bindings) (l : Template) : List Char :=
  l.symbols.flatMap (Symbol.chars bs)

theorem flatMap_chars_symbols_ofLines (bs : Bindings) (ls : List Template) :
    (ofLines ls).symbols.flatMap (Symbol.chars bs) = ls.flatMap fun l => lineChars bs l ++ ['\n'] := by
  induction ls with
  | nil => rfl
  | cons l ls ih =>
    have hsplit : (ofLines (l :: ls)).symbols = l.symbols ++ (.char '\n' :: (ofLines ls).symbols) := by
      rw [symbols, ofLines, List.flatMap_cons, List.append_assoc, List.flatMap_append]
      rfl
    rw [hsplit, List.flatMap_append, List.flatMap_cons, ih, List.flatMap_cons, List.append_assoc]
    rfl

/-! ## Parts -/

/-- A token of a template: a character of the code, a string literal that may hold slots, or a slot
in the code. -/
inductive Part where
  | mark (c : Char)
  | literal (content : List Symbol)
  | slot (name : String)
deriving DecidableEq, Repr

/-- Whether a symbol may stand in a literal: a character that is written as it is, or a slot. -/
def Symbol.isContent : Symbol → Bool
  | char c => Literal.escapeChar c = [c]
  | slot _ => true

namespace Part

/-- The tokens of some symbols; `content` is what has been read of a literal that is open. -/
def read : Option (List Symbol) → List Symbol → Option (List Part)
  | none, [] => some []
  | some _, [] => none
  | none, .slot name :: ss => (read none ss).map (slot name :: ·)
  | none, .char c :: ss =>
    if c = '\'' then read (some []) ss
    else if (Token.mark c).Plain then (read none ss).map (mark c :: ·)
    else none
  | some content, s :: ss =>
    if s = .char '\'' then (read none ss).map (literal content :: ·)
    else if s.isContent then read (some (content ++ [s])) ss
    else none

/-- The symbols of a part. -/
def symbols : Part → List Symbol
  | mark c => [.char c]
  | literal content => .char '\'' :: content ++ [.char '\'']
  | slot name => [.slot name]

/-- A part that stands for tokens which are read back. -/
def Sound : Part → Prop
  | mark c => (Token.mark c).Plain
  | literal content => ∀ s ∈ content, s.isContent = true
  | slot _ => True

/-- The symbols of a literal that is open. -/
def openSymbols : Option (List Symbol) → List Symbol
  | none => []
  | some content => .char '\'' :: content

/-- Reading loses nothing. -/
theorem flatMap_symbols_of_read {content : Option (List Symbol)} {ss : List Symbol}
    {ps : List Part} (h : read content ss = some ps) :
    ps.flatMap symbols = openSymbols content ++ ss := by
  fun_induction read content ss generalizing ps with
  | case1 => cases h; rfl
  | case2 => cases h
  | case3 name ss ih =>
    obtain ⟨qs, hqs, rfl⟩ := Option.map_eq_some_iff.1 h
    rw [List.flatMap_cons, ih hqs]
    rfl
  | case4 ss ih => exact ih h
  | case5 c ss hc hp ih =>
    obtain ⟨qs, hqs, rfl⟩ := Option.map_eq_some_iff.1 h
    rw [List.flatMap_cons, ih hqs]
    rfl
  | case6 => cases h
  | case7 content ss ih =>
    obtain ⟨qs, hqs, rfl⟩ := Option.map_eq_some_iff.1 h
    rw [List.flatMap_cons, ih hqs, symbols, openSymbols, openSymbols, List.append_assoc]
    rfl
  | case8 content s ss hs hc ih =>
    rw [ih h, openSymbols, openSymbols, ← List.cons_append, List.append_assoc]
    rfl
  | case9 => cases h

theorem sound_of_read {content : Option (List Symbol)} {ss : List Symbol} {ps : List Part}
    (h : read content ss = some ps) (hc : ∀ ds ∈ content, ∀ s ∈ ds, s.isContent = true) :
    ∀ p ∈ ps, p.Sound := by
  fun_induction read content ss generalizing ps with
  | case1 => cases h; exact nofun
  | case2 => cases h
  | case3 name ss ih =>
    obtain ⟨qs, hqs, rfl⟩ := Option.map_eq_some_iff.1 h
    exact List.forall_mem_cons.2 ⟨trivial, ih hqs nofun⟩
  | case4 ss ih => exact ih h fun ds hds => by cases hds; exact nofun
  | case5 c ss _ hp ih =>
    obtain ⟨qs, hqs, rfl⟩ := Option.map_eq_some_iff.1 h
    exact List.forall_mem_cons.2 ⟨hp, ih hqs nofun⟩
  | case6 => cases h
  | case7 ds ss ih =>
    obtain ⟨qs, hqs, rfl⟩ := Option.map_eq_some_iff.1 h
    exact List.forall_mem_cons.2 ⟨hc ds rfl, ih hqs nofun⟩
  | case8 ds s ss _ hs ih =>
    apply ih h
    intro es hes
    cases hes
    exact List.forall_mem_append.2 ⟨hc ds rfl, List.forall_mem_singleton.2 hs⟩
  | case9 => cases h

end Part

/-! ## Filling slots -/

/-- What stands in the slots: texts in those within literals, tokens in those in the code. -/
structure Filling where
  content : String → String
  code : String → List Token

namespace Filling

/-- The filling with the given texts and tokens under the names of slots. -/
def ofLists (contents : List (String × String)) (codes : List (String × List Token)) : Filling where
  content name := (contents.lookup name).getD ""
  code name := (codes.lookup name).getD []

theorem forall_code {contents : List (String × String)} {codes : List (String × List Token)}
    {P : List Token → Prop} (hnil : P []) (h : ∀ c ∈ codes, P c.2) (name : String) :
    P ((ofLists contents codes).code name) := by
  induction codes with
  | nil => exact hnil
  | cons c codes ih =>
    obtain ⟨n, ts⟩ := c
    obtain ⟨hc, hcodes⟩ := List.forall_mem_cons.1 h
    have hrest := ih hcodes
    unfold ofLists at hrest ⊢
    simp only [List.lookup_cons] at hrest ⊢
    cases name == n with
    | true => exact hc
    | false => exact hrest

/-- The outline of what stands in a slot of the code. -/
theorem outline_code (contents : List (String × String)) (codes : List (String × List Token))
    (name : String) : ((ofLists contents codes).code name).map Token.outline =
      ((codes.map fun c => (c.1, c.2.map Token.outline)).lookup name).getD [] := by
  induction codes with
  | nil => rfl
  | cons c codes ih =>
    obtain ⟨n, ts⟩ := c
    unfold ofLists at ih ⊢
    simp only [List.lookup_cons, List.map_cons] at ih ⊢
    cases name == n with
    | true => rfl
    | false => exact ih

end Filling

/-- The characters that a symbol of a literal stands for. -/
def Symbol.value (f : Filling) : Symbol → List Char
  | char c => [c]
  | slot name => (f.content name).toList

/-- The tokens of a part. -/
def Part.tokens (f : Filling) : Part → List Token
  | mark c => [.mark c]
  | literal content => [.literal '\'' (String.ofList (content.flatMap (Symbol.value f)))]
  | slot name => f.code name

/-- The tokens of a template. -/
def fill (f : Filling) (ps : List Part) : List Token :=
  ps.flatMap (Part.tokens f)

theorem fill_append (f : Filling) (ps qs : List Part) :
    fill f (ps ++ qs) = fill f ps ++ fill f qs :=
  List.flatMap_append

theorem fill_cons (f : Filling) (p : Part) (ps : List Part) :
    fill f (p :: ps) = p.tokens f ++ fill f ps :=
  List.flatMap_cons

theorem fill_mark (f : Filling) (cs : List Char) : fill f (cs.map .mark) = Token.marks cs := by
  induction cs with
  | nil => rfl
  | cons c cs ih => exact congrArg (.mark c :: ·) ih

/-- Whether the slots of a part are bound to what is filled in. -/
def Part.Bound (bs : Bindings) (f : Filling) : Part → Prop
  | mark _ => True
  | literal content => ∀ name, .slot name ∈ content →
      bs.get? name = some (Literal.escape (f.content name))
  | slot name => bs.get? name = some (String.ofList (Token.text (f.code name)))

section

variable {bs : Bindings} {f : Filling}

theorem Part.Bound.isSome {p : Part} (h : p.Bound bs f) {name : String}
    (hn : .slot name ∈ p.symbols) : (bs.get? name).isSome := by
  cases p with
  | mark c => cases List.mem_singleton.1 hn
  | literal content =>
    have hmem : .slot name ∈ content := by simpa [Part.symbols] using hn
    rw [h name hmem]
    rfl
  | slot n =>
    cases List.mem_singleton.1 hn
    have hs : bs.get? name = some (String.ofList (Token.text (f.code name))) := h
    rw [hs]
    rfl

/-- Bound slots turn the content of a literal into the escaped text that it stands for. -/
theorem flatMap_chars_content {content : List Symbol} (hc : ∀ s ∈ content, s.isContent = true)
    (hb : ∀ name, .slot name ∈ content → bs.get? name = some (Literal.escape (f.content name))) :
    content.flatMap (Symbol.chars bs) =
      (content.flatMap (Symbol.value f)).flatMap (Literal.written '\'') := by
  induction content with
  | nil => rfl
  | cons s content ih =>
    have hcs := ih (fun t ht => hc t (List.mem_cons_of_mem _ ht)) fun name hn =>
      hb name (List.mem_cons_of_mem _ hn)
    have hs : s.chars bs = (s.value f).flatMap (Literal.written '\'') := by
      cases s with
      | char c =>
        have hwritten : Literal.escapeChar c = [c] := by
          simpa only [Symbol.isContent, decide_eq_true_eq] using hc _ List.mem_cons_self
        rw [Symbol.value, List.flatMap_singleton]
        exact hwritten.symm
      | slot name =>
        rw [Symbol.chars, hb name List.mem_cons_self, Option.getD_some, Literal.escape,
          String.toList_ofList]
        rfl
    rw [List.flatMap_cons, List.flatMap_cons, List.flatMap_append, hs, hcs]

theorem Part.text_tokens {p : Part} (hp : p.Sound) (hb : p.Bound bs f) :
    Token.text (p.tokens f) = p.symbols.flatMap (Symbol.chars bs) := by
  cases p with
  | mark c => rfl
  | literal content =>
    have hcontent := flatMap_chars_content hp hb
    rw [Part.symbols, List.flatMap_append, List.flatMap_cons, hcontent, Part.tokens, Token.text,
      List.flatMap_singleton, Token.chars, Literal.text, String.toList_ofList]
    rfl
  | slot name =>
    have hs : bs.get? name = some (String.ofList (Token.text (f.code name))) := hb
    rw [Part.symbols, List.flatMap_singleton, Symbol.chars, hs, Option.getD_some,
      String.toList_ofList]
    rfl

theorem text_fill {ps : List Part} (hp : ∀ p ∈ ps, p.Sound) (hb : ∀ p ∈ ps, p.Bound bs f) :
    Token.text (fill f ps) = (ps.flatMap Part.symbols).flatMap (Symbol.chars bs) := by
  induction ps with
  | nil => rfl
  | cons p ps ih =>
    obtain ⟨hp, hps⟩ := List.forall_mem_cons.1 hp
    obtain ⟨hb, hbs⟩ := List.forall_mem_cons.1 hb
    rw [fill, List.flatMap_cons, Token.text_append, ← fill, ih hps hbs, Part.text_tokens hp hb,
      List.flatMap_cons, List.flatMap_append]

/-- A template that is read into parts renders to the text of their tokens. -/
theorem render_eq_text {t : Template} {ps : List Part} (h : Part.read none t.symbols = some ps)
    (hb : ∀ p ∈ ps, p.Bound bs f) :
    t.render bs = .ok (String.ofList (Token.text (fill f ps))) := by
  have hsymbols : ps.flatMap Part.symbols = t.symbols := Part.flatMap_symbols_of_read h
  rw [text_fill (Part.sound_of_read h nofun) hb, hsymbols]
  apply render_eq
  intro name hn
  rw [← hsymbols] at hn
  obtain ⟨p, hp, hn⟩ := List.mem_flatMap.1 hn
  exact (hb p hp).isSome hn

theorem plain_fill {ps : List Part} (hp : ∀ p ∈ ps, p.Sound)
    (hf : ∀ name, ∀ t ∈ f.code name, t.Plain) : ∀ t ∈ fill f ps, t.Plain := by
  intro t ht
  obtain ⟨p, hps, ht⟩ := List.mem_flatMap.1 ht
  cases p with
  | mark c =>
    rw [List.mem_singleton.1 ht]
    exact hp _ hps
  | literal content =>
    rw [List.mem_singleton.1 ht]
    exact .inl rfl
  | slot name => exact hf name t ht

/-- Fillings that differ in the contents of literals only give the same tokens but for these. -/
theorem map_outline_fill {g : Filling}
    (h : ∀ name, (f.code name).map Token.outline = (g.code name).map Token.outline)
    (ps : List Part) : (fill f ps).map Token.outline = (fill g ps).map Token.outline := by
  rw [fill, fill, List.map_flatMap, List.map_flatMap]
  apply List.flatMap_congr
  intro p _
  cases p with
  | mark c => rfl
  | literal content => rfl
  | slot name => exact h name

end

/-! ## Literals and slots of a template -/

/-- Whether a part is a character of the code. -/
def Part.isMark : Part → Bool
  | mark _ => true
  | _ => false

/-- The parts that are not single characters of the code. -/
def holes (ps : List Part) : List Part :=
  ps.filter fun p => !p.isMark

theorem values_fill (f : Filling) (ps : List Part) :
    Token.values (fill f ps) = (holes ps).flatMap fun p => Token.values (p.tokens f) := by
  induction ps with
  | nil => rfl
  | cons p ps ih =>
    rw [fill, List.flatMap_cons, Token.values_append, ← fill, ih, holes, holes]
    cases p with
    | mark c => rfl
    | literal content => rfl
    | slot name => rfl

/-- A literal whose content is fixed. -/
def Part.fixed (s : String) : Part :=
  .literal (s.toList.map .char)

/-- A literal that is filled with a text. -/
def Part.filled (name : String) : Part :=
  .literal [.slot name]

theorem values_fixed (f : Filling) (s : String) : Token.values ((Part.fixed s).tokens f) = [s] := by
  have hvalue : (s.toList.map Symbol.char).flatMap (Symbol.value f) = s.toList := by
    induction s.toList with
    | nil => rfl
    | cons c cs ih =>
      rw [List.map_cons, List.flatMap_cons, ih]
      rfl
  rw [Part.fixed, Part.tokens, hvalue, String.ofList_toList]
  rfl

theorem tokens_filled (f : Filling) (name : String) :
    (Part.filled name).tokens f = [.literal '\'' (f.content name)] := by
  rw [Part.filled, Part.tokens, List.flatMap_singleton, Symbol.value, String.ofList_toList]

theorem values_filled (f : Filling) (name : String) :
    Token.values ((Part.filled name).tokens f) = [f.content name] := by
  rw [tokens_filled]
  rfl

theorem bound_fixed (bs : Bindings) (f : Filling) (s : String) : (Part.fixed s).Bound bs f := by
  intro name hn
  obtain ⟨c, -, hc⟩ := List.mem_map.1 hn
  cases hc

theorem bound_filled {bs : Bindings} {f : Filling} {name : String}
    (h : bs.get? name = some (Literal.escape (f.content name))) : (Part.filled name).Bound bs f := by
  intro n hn
  cases List.mem_singleton.1 hn
  exact h

theorem bound_slot {bs : Bindings} {f : Filling} {name value : String}
    (h : bs.get? name = some value) (hv : value.toList = Token.text (f.code name)) :
    (Part.slot name).Bound bs f := by
  rw [Part.Bound, ← hv, String.ofList_toList]
  exact h

theorem bound_of_holes {bs : Bindings} {f : Filling} {ps : List Part}
    (h : ∀ p ∈ holes ps, p.Bound bs f) : ∀ p ∈ ps, p.Bound bs f := by
  intro p hp
  cases p with
  | mark c => trivial
  | literal content => exact h _ (List.mem_filter.2 ⟨hp, rfl⟩)
  | slot name => exact h _ (List.mem_filter.2 ⟨hp, rfl⟩)

/-! ## Blocks -/

/-- The open brackets after a part whose slots open nothing. -/
def Part.bracket (opened : List Char) : Part → List Char
  | mark c => Token.bracket opened (.mark c)
  | literal _ => opened
  | slot _ => opened

/-- Whether a part is one token that is not blank. -/
def Part.isSolid : Part → Bool
  | mark c => !Text.isBlank c
  | literal _ => true
  | slot _ => false

/-- Whether parts open nothing that they do not close, begin with a token that is not blank and end
with such a token and a line feed. -/
def isBlock (ps : List Part) : Bool :=
  (ps.foldl Part.bracket []).isEmpty && ps.head?.any Part.isSolid &&
    match ps.reverse with
    | .mark '\n' :: p :: _ => p.isSolid
    | _ => false

theorem Part.exists_token {p : Part} (h : p.isSolid = true) (f : Filling) :
    ∃ t, p.tokens f = [t] ∧ Token.isBlank t = false := by
  cases p with
  | mark c =>
    rw [isSolid, Bool.not_eq_true'] at h
    exact ⟨.mark c, rfl, h⟩
  | literal content => exact ⟨_, rfl, rfl⟩
  | slot name => cases h

theorem brackets_fill {f : Filling}
    (hf : ∀ name, Token.Neutral (f.code name)) (ps : List Part)
    (opened : List Char) : Token.brackets opened (fill f ps) = ps.foldl Part.bracket opened := by
  induction ps generalizing opened with
  | nil => rfl
  | cons p ps ih =>
    rw [fill, List.flatMap_cons, Token.brackets_append, ← fill, ih, List.foldl_cons]
    refine congrArg (List.foldl Part.bracket · ps) ?_
    cases p with
    | mark c => rfl
    | literal content => rfl
    | slot name => exact hf name opened

theorem block_fill {f : Filling} {ps : List Part} (h : isBlock ps = true)
    (hp : ∀ p ∈ ps, p.Sound) (hplain : ∀ name, ∀ t ∈ f.code name, t.Plain)
    (hf : ∀ name, Token.Neutral (f.code name)) :
    Token.Block (fill f ps) := by
  simp only [isBlock, Bool.and_eq_true, List.isEmpty_iff, Option.any_eq_true] at h
  obtain ⟨⟨hclosed, p, hhead, hsolid⟩, hlast⟩ := h
  refine ⟨plain_fill hp hplain, ?_, ?_, (brackets_fill hf ps []).trans hclosed⟩
  · obtain ⟨qs, rfl⟩ := List.head?_eq_some_iff.1 hhead
    obtain ⟨t, ht, hb⟩ := p.exists_token hsolid f
    exact ⟨t, by rw [fill, List.flatMap_cons, ht]; rfl, hb⟩
  · split at hlast
    · rename_i q qs hreverse
      obtain ⟨t, ht, hb⟩ := q.exists_token hlast f
      have hps : ps = qs.reverse ++ [q, .mark '\n'] := by
        rw [← List.reverse_reverse ps, hreverse, List.reverse_cons, List.reverse_cons,
          List.append_assoc]
        rfl
      refine ⟨t, hb, fill f qs.reverse, ?_⟩
      rw [hps, fill, fill, List.flatMap_append, List.flatMap_cons, ht]
      rfl
    · cases hlast

/-! ## Checking a template -/

/-- Whether a template is read into parts that are a block and have the given holes. -/
def readsAs (hs : List Part) (t : Template) : Bool :=
  (Part.read none t.symbols).any fun ps => isBlock ps && holes ps == hs

/-- The parts of a template. -/
def parts (t : Template) : List Part :=
  (Part.read none t.symbols).getD []

theorem read_of_readsAs {hs : List Part} {t : Template} (h : readsAs hs t = true) :
    Part.read none t.symbols = some t.parts ∧ isBlock t.parts = true ∧ holes t.parts = hs := by
  obtain ⟨ps, hps, h⟩ := (Option.any_eq_true _ _).1 h
  rw [Bool.and_eq_true, beq_iff_eq] at h
  rw [parts, hps]
  exact ⟨rfl, h⟩

/-- The tokens of a template with texts in its literals. -/
def withTexts (contents : List (String × String)) (t : Template) : List Token :=
  fill (.ofLists contents []) t.parts

section

variable {hs : List Part} {t : Template} (h : readsAs hs t = true) (contents : List (String × String))

include h

theorem block_withTexts : Token.Block (t.withTexts contents) :=
  block_fill (read_of_readsAs h).2.1 (Part.sound_of_read (read_of_readsAs h).1 nofun)
    (fun _ _ ht => absurd ht List.not_mem_nil) fun _ _ => rfl

theorem text_withTexts {bs : Bindings} (hb : ∀ p ∈ hs, p.Bound bs (.ofLists contents [])) :
    Token.text (t.withTexts contents) = t.symbols.flatMap (Symbol.chars bs) := by
  obtain ⟨hread, -, hholes⟩ := read_of_readsAs h
  rw [withTexts, text_fill (Part.sound_of_read hread nofun) (bound_of_holes (hholes ▸ hb)),
    Part.flatMap_symbols_of_read hread]
  rfl

theorem values_withTexts : Token.values (t.withTexts contents) =
    hs.flatMap fun p => Token.values (p.tokens (.ofLists contents [])) := by
  rw [withTexts, values_fill, (read_of_readsAs h).2.2]

end

theorem map_outline_withTexts (contents others : List (String × String)) (t : Template) :
    (t.withTexts contents).map Token.outline = (t.withTexts others).map Token.outline :=
  map_outline_fill (f := .ofLists contents []) (g := .ofLists others []) (fun _ => rfl) t.parts

end SiteScript.Template
