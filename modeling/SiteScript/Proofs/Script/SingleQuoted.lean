import SiteScript.Proofs.Script.Literal

/-!
# Literals between single quotes

`Literal.readSingle` reads a literal between single quotes from behind its opening quote, and stops at
the character that ends it: a quote without a backslash, or a line terminator.  It knows no escapes but
those that a user's text needs.  An escaped text is read back in front of any closing quote
(`Literal.readSingle_escape`), so no two texts are escaped in the same way.
-/

namespace SiteScript.Literal

/-- The text of a literal, and what follows it from the character on that ends it; nothing if it does
not end, or has an escape that is not known. -/
def readSingle : List Char → Option (List Char × List Char)
  | [] => none
  | '\\' :: '\\' :: cs => (readSingle cs).map fun p => ('\\' :: p.1, p.2)
  | '\\' :: '\'' :: cs => (readSingle cs).map fun p => ('\'' :: p.1, p.2)
  | '\\' :: 'n' :: cs => (readSingle cs).map fun p => ('\n' :: p.1, p.2)
  | '\\' :: 'r' :: cs => (readSingle cs).map fun p => ('\r' :: p.1, p.2)
  | '\\' :: 'u' :: a :: b :: c :: d :: cs =>
    (hexChar? [a, b, c, d]).bind fun x => (readSingle cs).map fun p => (x :: p.1, p.2)
  | '\\' :: _ => none
  | c :: cs =>
    if c = '\'' || isTerminator c then some ([], c :: cs)
    else (readSingle cs).map fun p => (c :: p.1, p.2)

/-- A quote or a line terminator ends a literal. -/
theorem readSingle_end {c : Char} (h : c = '\'' ∨ isTerminator c = true) (cs : List Char) :
    readSingle (c :: cs) = some ([], c :: cs) := by
  have hb : c ≠ '\\' := by
    rintro rfl
    exact absurd h (by decide)
  rw [readSingle, if_pos (by simpa using h)]
  all_goals simp [hb]

theorem readSingle_cons {c : Char} (hb : c ≠ '\\') (hq : c ≠ '\'') (ht : isTerminator c = false)
    (cs : List Char) : readSingle (c :: cs) = (readSingle cs).map fun p => (c :: p.1, p.2) := by
  rw [readSingle, if_neg (by simp [hq, ht])]
  all_goals simp [hb]

/-- Reading what is written of a character answers that character. -/
theorem readSingle_escapeChar (c : Char) (cs : List Char) :
    readSingle (escapeChar c ++ cs) = (readSingle cs).map fun p => (c :: p.1, p.2) := by
  unfold escapeChar
  split_ifs with hb hq hn hr h28 h29
  · subst hb; rfl
  · subst hq; rfl
  · subst hn; rfl
  · subst hr; rfl
  · subst h28; rfl
  · subst h29; rfl
  · exact readSingle_cons hb hq (isTerminator_of_ne hn hr h28 h29) cs

/-- An escaped text is read up to the quote behind it. -/
theorem readSingle_escape (s : String) (rest : List Char) :
    readSingle ((escape s).toList ++ '\'' :: rest) = some (s.toList, '\'' :: rest) := by
  rw [escape, String.toList_ofList]
  induction s.toList with
  | nil => exact readSingle_end (.inl rfl) rest
  | cons c cs ih =>
    rw [List.flatMap_cons, List.append_assoc, readSingle_escapeChar, ih]
    rfl

/-- An escaped text stands on one line. -/
theorem isTerminator_of_mem_escape {s : String} {c : Char} (h : c ∈ (escape s).toList) :
    isTerminator c = false := by
  rw [escape, String.toList_ofList, List.mem_flatMap] at h
  obtain ⟨x, -, hc⟩ := h
  exact (writes_escapeChar x).isTerminator_eq_false c hc

/-- Different texts are escaped in different ways. -/
theorem escape_injective : Function.Injective escape := by
  intro s t h
  have hs := readSingle_escape s []
  rw [h, readSingle_escape t []] at hs
  exact (String.toList_inj.1 (congrArg Prod.fst (Option.some.inj hs))).symm

theorem escape_recovered :
    (∀ s t : String, readSingle (escape s ++ "'" ++ t).toList = some (s.toList, ("'" ++ t).toList)) ∧
      (∀ s : String, ∀ c ∈ (escape s).toList,
        c ≠ '\n' ∧ c ≠ '\r' ∧ c ≠ '\u2028' ∧ c ≠ '\u2029') ∧
      Function.Injective escape := by
  refine ⟨fun s t => ?_, fun s c hc => ?_, escape_injective⟩
  · rw [String.append_assoc, String.toList_append, String.toList_append]
    exact readSingle_escape s t.toList
  · have hline := isTerminator_of_mem_escape hc
    simpa [isTerminator, and_assoc] using hline

end SiteScript.Literal
