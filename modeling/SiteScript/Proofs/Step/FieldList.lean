import SiteScript.Proofs.Json.Roundtrip
import SiteScript.Proofs.Step.Stored
import SiteScript.Proofs.Step.ListTokens

/-!
# The list of fields as JSON

The list of scrape fields in a script is JSON text in which two line terminators are spelled out.
It is read back like any JSON text (`ScrapeField.parse_literal`): a string with spelled terminators
is only another way of writing the string (`writesStrings_text`).  It stands on one line and shows all
of its characters (`ScrapeField.shown_of_mem_literal`).
-/

namespace SiteScript

open Json

/-! ## Strings -/

theorem readString_jsonChar (c : Char) (cs : List Char) :
    readString (Literal.jsonChar c ++ cs) =
      (readString cs).map fun (xs, rest) => (c :: xs, rest) := by
  by_cases h28 : c = '\u2028'
  · subst h28
    have hspelled : Literal.jsonChar '\u2028' = ['\\', 'u', '2', '0', '2', '8'] := by decide
    have hescape : readEscape ('u' :: '2' :: '0' :: '2' :: '8' :: cs) = .ok ('\u2028', 5) := by rfl
    simp only [hspelled, List.cons_append, List.nil_append]
    rw [readString, if_neg (by decide), if_pos rfl, hescape]
    rfl
  by_cases h29 : c = '\u2029'
  · subst h29
    have hspelled : Literal.jsonChar '\u2029' = ['\\', 'u', '2', '0', '2', '9'] := by decide
    have hescape : readEscape ('u' :: '2' :: '0' :: '2' :: '9' :: cs) = .ok ('\u2029', 5) := by rfl
    simp only [hspelled, List.cons_append, List.nil_append]
    rw [readString, if_neg (by decide), if_pos rfl, hescape]
    rfl
  rw [Literal.jsonChar_eq_escapeChar h28 h29]
  exact readString_escapeChar c cs

/-- A literal between double quotes is a string of JSON text. -/
theorem writesStrings_text : WritesStrings (Literal.text '"') := by
  intro s rest
  have hread (cs : List Char) : readString (cs.flatMap (Literal.written '"') ++ '"' :: rest) =
      .ok (cs, rest) := by
    induction cs with
    | nil => rw [List.flatMap_nil, List.nil_append, readString, if_pos rfl]
    | cons c cs ih =>
      have hwritten : Literal.written '"' c = Literal.jsonChar c := rfl
      rw [List.flatMap_cons, List.append_assoc, hwritten, readString_jsonChar, ih]
      rfl
  refine ⟨s.toList.flatMap (Literal.written '"') ++ '"' :: rest, ?_, hread s.toList⟩
  rw [Literal.text, List.cons_append, List.cons_append, List.append_assoc]
  rfl

/-! ## Values -/

theorem printItemsWith_eq_intercalate (write : String → List Char) (xs : List Json) :
    printItemsWith write xs = [','].intercalate (xs.map (printWith write)) := by
  induction xs with
  | nil => rfl
  | cons x xs ih =>
    cases xs with
    | nil => rw [printItemsWith, List.map_singleton, List.intercalate_singleton]
    | cons y ys =>
      rw [printItemsWith, ih, List.map_cons, List.map_cons, List.map_cons,
        List.intercalate_cons_cons]
      · simp
      · exact List.cons_ne_nil y ys

theorem printMembersWith_eq_intercalate (write : String → List Char) (ms : Members) :
    printMembersWith write ms =
      [','].intercalate (ms.map fun m => write m.1 ++ ':' :: printWith write m.2) := by
  induction ms with
  | nil => rfl
  | cons m ms ih =>
    obtain ⟨k, x⟩ := m
    cases ms with
    | nil => rw [printMembersWith, List.map_singleton, List.intercalate_singleton]
    | cons n ns =>
      rw [printMembersWith, ih, List.map_cons, List.map_cons, List.map_cons,
        List.intercalate_cons_cons]
      · simp
      · exact List.cons_ne_nil n ns

/-- Spelling out separators changes how strings are written, and nothing else. -/
theorem spellSeparators_print {depth : Nat} {x : Json} (h : Readable depth x) :
    spellSeparators x.print = printWith (Literal.text '"') x := by
  induction h with
  | null => rw [print, printWith]; decide
  | bool b => cases b <;> rw [print, printWith] <;> decide
  | str s => rw [print, printWith, Literal.spellSeparators_quoted]
  | arr h ih =>
    rw [print, printWith, spellSeparators_bracketed _ _ _ rfl rfl, spellSeparators_printItems,
      printItemsWith_eq_intercalate, List.map_congr_left ih]
  | obj h ih =>
    rw [print, printWith, spellSeparators_bracketed _ _ _ rfl rfl, spellSeparators_printMembers,
      printMembersWith_eq_intercalate]
    refine congrArg (fun ls => '\x7b' :: [','].intercalate ls ++ ['\x7d']) ?_
    apply List.map_congr_left
    intro m hm
    rw [ih m hm]

/-! ## The list of fields -/

/-- A scrape field as it is read from a script: an object with its members sorted. -/
def ScrapeField.json (f : ScrapeField) : Json :=
  .obj [("attribute", .str f.extract), ("key", .str f.key), ("name", .str f.name)]

theorem ScrapeField.canonical_write (f : ScrapeField) : (record.write f).canonical = f.json := by
  have hkey : "key" < "name" := by decide
  have hextract : "attribute" < "key" := by decide
  have hwrite : record.write f =
      .obj [("name", .str f.name), ("key", .str f.key), ("attribute", .str f.extract)] := rfl
  simp only [hwrite, json, canonical, canonicalMembers, Members.ofList, List.foldl_cons,
    List.foldl_nil, Members.insert, hkey, hkey.ne, hextract, hextract.ne, if_true, if_false]

theorem ScrapeField.canonical_fields (fs : List ScrapeField) :
    (Json.arr (fs.map record.write)).canonical = .arr (fs.map json) := by
  rw [Json.canonical, canonicalItems_eq_map, List.map_map]
  exact congrArg Json.arr (List.map_congr_left fun f _ => f.canonical_write)

/-- The list of fields in a script holds the fields. -/
theorem ScrapeField.parse_literal (fs : List ScrapeField) :
    Json.parse (literal fs) = .ok (.arr (fs.map json)) := by
  have hreadable : Readable 2 (.arr (fs.map record.write)) :=
    Action.readable_fields Action.readable_scrapeField fs
  rw [literal, spellSeparators_print hreadable, ← canonical_fields]
  exact parse_printWith writesStrings_text (hreadable.mono (by decide))

/-! ## Its characters -/

/-- No control and no line terminator stands in the list of fields in a script. -/
theorem ScrapeField.shown_of_mem_literal (fs : List ScrapeField) :
    ∀ c ∈ (literal fs).toList, 0x20 ≤ c.toNat ∧ Literal.isTerminator c = false := by
  have hmarks : ∀ c ∈ ['[', ']', '\x7b', '\x7d', ',', ':'],
      0x20 ≤ c.toNat ∧ Literal.isTerminator c = false := by simp [Literal.isTerminator]
  have htokens : ∀ t ∈ fieldTokens fs, ∀ c ∈ t.chars,
      0x20 ≤ c.toNat ∧ Literal.isTerminator c = false := by
    refine forall_mem_fieldTokens (fun value c hc => ?_) (fun c hc d hd => ?_) fs
    · refine ⟨?_, Literal.isTerminator_of_mem_text (.inr rfl) hc⟩
      rw [Token.chars, Literal.text, List.mem_append, List.mem_cons, List.mem_singleton,
        List.mem_flatMap] at hc
      obtain (rfl | ⟨x, -, hx⟩) | rfl := hc
      · decide
      · exact Literal.le_toNat_of_mem_jsonChar hx
      · decide
    · rw [Token.chars, List.mem_singleton] at hd
      exact hd ▸ hmarks c hc
  intro c hc
  rw [toList_literal, Token.text, List.mem_flatMap] at hc
  obtain ⟨t, ht, hc⟩ := hc
  exact htokens t ht c hc

/-- The list of fields in a script is JSON text on one line, and the fields are read from it. -/
theorem ScrapeField.literal_decodes (fs : List ScrapeField) :
    Text.lines (literal fs).toList = [(literal fs).toList] ∧
      (∀ c ∈ (literal fs).toList, 0x20 ≤ c.toNat ∧ c ≠ '\u2028' ∧ c ≠ '\u2029') ∧
      ∃ x, Json.parse (literal fs) = .ok x ∧ asList record.read x = .ok fs := by
  have hshown := shown_of_mem_literal fs
  refine ⟨Text.lines_of_not_mem ?_ fun hfeed => ?_, fun c hc => ?_, _, parse_literal fs, ?_⟩
  · rw [toList_literal]
    exact List.cons_ne_nil _ _
  · exact absurd (hshown _ hfeed).2 (by decide)
  · obtain ⟨hspace, hline⟩ := hshown c hc
    refine ⟨hspace, ?_, ?_⟩
    · rintro rfl
      exact absurd hline (by decide)
    · rintro rfl
      exact absurd hline (by decide)
  · rw [← canonical_fields]
    exact Record.asList_canonical ScrapeField.recoverable fs

end SiteScript
