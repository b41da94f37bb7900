import SiteScript.Proofs.Script.Block
import SiteScript.Step.Emission

/-!
# Tokens of the lists in a script

The entries of a form, the calls that wait for selectors and the list of scrape fields as tokens.  They
fit into the code of a template (`Fits`): they are plain and close all brackets that they open.  But for
the contents of literals they depend on the length of the list only.
-/

namespace SiteScript

open Token

/-! ## Lists in a script -/

/-- The tokens of one entry of the map that fills a form. -/
def FormField.tokens (f : FormField) : List Token :=
  [.literal '\'' f.key, .mark ':', .mark ' ', .literal '\'' f.value]

/-- The tokens of the map that fills a form. -/
def entryTokens (fs : List FormField) : List Token :=
  [.mark ',', .mark '\n'].intercalate (fs.map FormField.tokens)

/-- The tokens of a call that waits for a selector. -/
def waitToken (s : String) : List Token :=
  marks "this.waitForSelector(".toList ++ [.literal '\'' s, .mark ')', .mark ';']

/-- The tokens of calls that wait for selectors. -/
def waitTokens (selectors : List String) : List Token :=
  [.mark '\n'].intercalate (selectors.map waitToken)

/-- The tokens of a member that holds a text. -/
def memberTokens (key value : String) : List Token :=
  [.literal '"' key, .mark ':', .literal '"' value]

/-- The tokens of a scrape field as an object. -/
def ScrapeField.tokens (f : ScrapeField) : List Token :=
  .mark '\x7b' :: [.mark ','].intercalate
    [memberTokens "name" f.name, memberTokens "key" f.key, memberTokens "attribute" f.extract] ++
      [.mark '\x7d']

/-- The tokens of scrape fields as an array. -/
def fieldTokens (fs : List ScrapeField) : List Token :=
  .mark '[' :: [.mark ','].intercalate (fs.map ScrapeField.tokens) ++ [.mark ']']

/-- The tokens of a truth value. -/
def flagTokens (b : Bool) : List Token :=
  marks (toString b).toList

theorem toList_entries (fs : List FormField) : (FormField.entries fs).toList = text (entryTokens fs) := by
  have hfield (f : FormField) :
      (Literal.quote f.key ++ ": " ++ Literal.quote f.value).toList = text f.tokens := by
    rw [String.toList_append, String.toList_append, Literal.toList_quote, Literal.toList_quote,
      String.toList_ofList, List.append_assoc, FormField.tokens]
    simp [Token.text, Token.chars]
  rw [FormField.entries, entryTokens, String.toList_intercalate, text_intercalate, List.map_map,
    List.map_map]
  exact congrArg (List.intercalate _) (List.map_congr_left fun f _ => hfield f)

theorem toList_waits (selectors : List String) :
    (waits selectors).toList = text (waitTokens selectors) := by
  have hwait (s : String) :
      ("this.waitForSelector(" ++ Literal.quote s ++ ");").toList = text (waitToken s) := by
    rw [waitToken, text_append, text_marks, String.toList_append, String.toList_append,
      Literal.toList_quote, List.append_assoc]
    simp [Token.text, Token.chars]
  rw [waits, waitTokens, String.toList_intercalate, text_intercalate, List.map_map, List.map_map]
  exact congrArg (List.intercalate _) (List.map_congr_left fun s _ => hwait s)

theorem spellSeparators_comma (cs : List Char) :
    spellSeparators (',' :: cs) = ',' :: spellSeparators cs := rfl

theorem spellSeparators_printItems (xs : List Json) :
    spellSeparators (Json.printItems xs) =
      [','].intercalate (xs.map fun x => spellSeparators x.print) := by
  induction xs with
  | nil => rfl
  | cons x xs ih =>
    cases xs with
    | nil => rw [Json.printItems, List.map_singleton, List.intercalate_singleton]
    | cons y ys =>
      rw [Json.printItems, Literal.spellSeparators_append, spellSeparators_comma, ih, List.map_cons,
        List.map_cons, List.map_cons, List.intercalate_cons_cons]
      · exact List.append_cons ..
      · exact List.cons_ne_nil _ _

theorem spellSeparators_printMembers (ms : Members) :
    spellSeparators (Json.printMembers ms) =
      [','].intercalate
        (ms.map fun m => Literal.text '"' m.1 ++ ':' :: spellSeparators m.2.print) := by
  have hmember (k : String) (x : Json) : spellSeparators (Json.quoted k ++ ':' :: x.print) =
      Literal.text '"' k ++ ':' :: spellSeparators x.print := by
    rw [Literal.spellSeparators_append, Literal.spellSeparators_quoted, ← List.singleton_append,
      Literal.spellSeparators_append]
    rfl
  induction ms with
  | nil => rfl
  | cons m ms ih =>
    obtain ⟨k, x⟩ := m
    cases ms with
    | nil => rw [Json.printMembers, List.map_singleton, List.intercalate_singleton, hmember]
    | cons n ns =>
      rw [Json.printMembers, Literal.spellSeparators_append, hmember, spellSeparators_comma, ih,
        List.map_cons, List.map_cons, List.map_cons, List.intercalate_cons_cons]
      · exact List.append_cons ..
      · exact List.cons_ne_nil _ _

theorem spellSeparators_bracketed (o c : Char) (cs : List Char) (ho : spellSeparators [o] = [o])
    (hc : spellSeparators [c] = [c]) :
    spellSeparators (o :: cs ++ [c]) = o :: spellSeparators cs ++ [c] := by
  rw [Literal.spellSeparators_append, ← List.singleton_append, Literal.spellSeparators_append, ho, hc]
  rfl

theorem text_memberTokens (key value : String) :
    text (memberTokens key value) = Literal.text '"' key ++ ':' :: Literal.text '"' value := by
  simp [memberTokens, Token.text, Token.chars]

theorem spellSeparators_write (f : ScrapeField) :
    spellSeparators (ScrapeField.record.write f).print = text f.tokens := by
  have hwrite : ScrapeField.record.write f =
      .obj [("name", .str f.name), ("key", .str f.key), ("attribute", .str f.extract)] := rfl
  have hstr (s : String) : spellSeparators (Json.str s).print = Literal.text '"' s := by
    rw [Json.print, Literal.spellSeparators_quoted]
  rw [hwrite, Json.print, spellSeparators_bracketed _ _ _ rfl rfl, spellSeparators_printMembers,
    ScrapeField.tokens, text_append, text_cons, text_intercalate]
  simp only [List.map_cons, List.map_nil, hstr, text_memberTokens]
  rfl

theorem toList_literal (fs : List ScrapeField) :
    (ScrapeField.literal fs).toList = text (fieldTokens fs) := by
  rw [ScrapeField.literal, String.toList_ofList, Json.print, spellSeparators_bracketed _ _ _ rfl rfl,
    spellSeparators_printItems, List.map_map, fieldTokens, text_append, text_cons, text_intercalate,
    List.map_map]
  exact congrArg (fun ls => '[' :: [','].intercalate ls ++ [']'])
    (List.map_congr_left fun f _ => spellSeparators_write f)

/-- What the list of fields is made of. -/
theorem forall_mem_fieldTokens {P : Token → Prop} (hliteral : ∀ value, P (.literal '"' value))
    (hmark : ∀ c ∈ ['[', ']', '\x7b', '\x7d', ',', ':'], P (.mark c)) (fs : List ScrapeField) :
    ∀ t ∈ fieldTokens fs, P t := by
  simp only [List.forall_mem_cons] at hmark
  obtain ⟨hopen, hclose, hopenField, hcloseField, hcomma, hcolon, -⟩ := hmark
  have hmember (key value : String) : ∀ t ∈ memberTokens key value, P t := by
    simp only [memberTokens, List.forall_mem_cons]
    exact ⟨hliteral _, hcolon, hliteral _, List.forall_mem_nil _⟩
  have hlist {ls : List (List Token)} (h : ∀ l ∈ ls, ∀ t ∈ l, P t) :
      ∀ t ∈ [Token.mark ','].intercalate ls, P t :=
    intercalate_of_append (P := fun l => ∀ t ∈ l, P t) (List.forall_mem_nil _)
      (fun _ _ hts hus => List.forall_mem_append.2 ⟨hts, hus⟩)
      (List.forall_mem_singleton.2 hcomma) h
  have hfield (f : ScrapeField) : ∀ t ∈ f.tokens, P t := by
    rw [ScrapeField.tokens, List.cons_append, List.forall_mem_cons, List.forall_mem_append]
    refine ⟨hopenField, hlist ?_, List.forall_mem_singleton.2 hcloseField⟩
    simp only [List.forall_mem_cons]
    exact ⟨hmember _ _, hmember _ _, hmember _ _, List.forall_mem_nil _⟩
  rw [fieldTokens, List.cons_append, List.forall_mem_cons, List.forall_mem_append]
  refine ⟨hopen, hlist ?_, List.forall_mem_singleton.2 hclose⟩
  intro l hl
  obtain ⟨f, -, rfl⟩ := List.mem_map.1 hl
  exact hfield f

theorem toList_toString (b : Bool) : (toString b).toList = text (flagTokens b) :=
  (text_marks _).symm

/-! ## What stands in the code -/

/-- Tokens that may stand in a slot of the code. -/
structure Fits (ts : List Token) : Prop where
  plain : ∀ t ∈ ts, t.Plain
  neutral : Neutral ts

theorem Fits.append {ts us : List Token} (h : Fits ts) (h' : Fits us) : Fits (ts ++ us) :=
  ⟨List.forall_mem_append.2 ⟨h.plain, h'.plain⟩, h.neutral.append h'.neutral⟩

theorem Fits.intercalate {α : Type} {sep : List Token} (hsep : Fits sep) {g : α → List Token}
    (h : ∀ x, Fits (g x)) (xs : List α) : Fits (sep.intercalate (xs.map g)) := by
  refine ⟨fun t ht => ?_, neutral_intercalate hsep.neutral fun l hl => ?_⟩
  · obtain ht | ⟨l, hl, ht⟩ := mem_intercalate ht
    · exact hsep.plain t ht
    · obtain ⟨x, -, rfl⟩ := List.mem_map.1 hl
      exact (h x).plain t ht
  · obtain ⟨x, -, rfl⟩ := List.mem_map.1 hl
    exact (h x).neutral

/-- Whether tokens fit does not depend on the contents of literals. -/
theorem Fits.of_outline {ts us : List Token} (h : ts.map outline = us.map outline) (hu : Fits us) :
    Fits ts := by
  refine ⟨fun t ht => ?_, fun opened => ?_⟩
  · obtain ⟨u, hu', he⟩ := List.mem_map.1 (h ▸ List.mem_map_of_mem (f := outline) ht)
    exact plain_outline_iff.1 (he ▸ plain_outline_iff.2 (hu.plain u hu'))
  · rw [← brackets_map_outline, h, brackets_map_outline, hu.neutral]

theorem outline_formField (f g : FormField) : f.tokens.map outline = g.tokens.map outline := rfl

theorem outline_waitToken (s t : String) : (waitToken s).map outline = (waitToken t).map outline := by
  rw [waitToken, waitToken, List.map_append, List.map_append]
  rfl

theorem outline_scrapeField (f g : ScrapeField) : f.tokens.map outline = g.tokens.map outline := rfl

theorem fits_entryTokens (fs : List FormField) : Fits (entryTokens fs) := by
  have hblank : Fits (FormField.tokens {}) := ⟨by decide, fun _ => rfl⟩
  exact Fits.intercalate ⟨by decide, fun _ => rfl⟩
    (fun f => .of_outline (outline_formField f {}) hblank) fs

theorem fits_waitTokens (selectors : List String) : Fits (waitTokens selectors) := by
  have hblank : Fits (waitToken "") := by
    rw [waitToken, String.toList_ofList]
    exact ⟨by decide, fun _ => rfl⟩
  exact Fits.intercalate ⟨by decide, fun _ => rfl⟩
    (fun s => .of_outline (outline_waitToken s "") hblank) selectors

theorem fits_fieldTokens (fs : List ScrapeField) : Fits (fieldTokens fs) := by
  have hblank : Fits (ScrapeField.tokens {}) := ⟨by decide, fun _ => rfl⟩
  have hitems : Fits ([.mark ','].intercalate (fs.map ScrapeField.tokens)) :=
    Fits.intercalate ⟨by decide, fun _ => rfl⟩
      (fun f => .of_outline (outline_scrapeField f {}) hblank) fs
  refine ⟨?_, fun opened => ?_⟩
  · rw [fieldTokens, List.cons_append, List.forall_mem_cons, List.forall_mem_append]
    exact ⟨by decide, hitems.plain, by decide⟩
  · rw [fieldTokens, List.cons_append, brackets, List.foldl_cons, ← brackets, brackets_append,
      hitems.neutral]
    rfl

theorem fits_flagTokens (b : Bool) : Fits (flagTokens b) := by
  cases b <;> exact ⟨by decide, fun _ => rfl⟩

/-! ## What the lists in the code depend on -/

theorem outline_entryTokens {fs gs : List FormField} (h : fs.length = gs.length) :
    (entryTokens fs).map outline = (entryTokens gs).map outline := by
  rw [entryTokens, entryTokens, map_outline_intercalate_map fun f => outline_formField f {},
    map_outline_intercalate_map fun f => outline_formField f {}, h]

theorem outline_waitTokens {ss ts : List String} (h : ss.length = ts.length) :
    (waitTokens ss).map outline = (waitTokens ts).map outline := by
  rw [waitTokens, waitTokens, map_outline_intercalate_map fun s => outline_waitToken s "",
    map_outline_intercalate_map fun s => outline_waitToken s "", h]

theorem outline_fieldTokens {fs gs : List ScrapeField} (h : fs.length = gs.length) :
    (fieldTokens fs).map outline = (fieldTokens gs).map outline := by
  simp only [fieldTokens, List.map_append, List.map_cons,
    map_outline_intercalate_map fun f => outline_scrapeField f {}, h]

/-! ## The texts of their literals -/

theorem values_entryTokens (fs : List FormField) :
    values (entryTokens fs) = fs.flatMap fun f => [f.key, f.value] := by
  rw [entryTokens, values_intercalate rfl, List.flatMap_map]
  rfl

theorem values_waitTokens (selectors : List String) : values (waitTokens selectors) = selectors := by
  have hwait (s : String) : values (waitToken s) = [s] := by
    rw [waitToken, values_append, values_marks]
    rfl
  rw [waitTokens, values_intercalate rfl, List.flatMap_map]
  simp only [hwait]
  exact List.flatMap_pure_eq_map id selectors |>.trans (List.map_id _)

/-- The texts of the literals of a scrape field. -/
def ScrapeField.literals (f : ScrapeField) : List String :=
  ["name", f.name, "key", f.key, "attribute", f.extract]

theorem values_fieldTokens (fs : List ScrapeField) :
    values (fieldTokens fs) = fs.flatMap ScrapeField.literals := by
  rw [fieldTokens, values_append, ← List.singleton_append, values_append, values_intercalate rfl,
    List.flatMap_map]
  exact List.append_nil _

theorem values_flagTokens (b : Bool) : values (flagTokens b) = [] :=
  values_marks _

end SiteScript
