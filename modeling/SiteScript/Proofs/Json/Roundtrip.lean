import Mathlib.Data.List.Basic
import SiteScript.Json.Parser
import SiteScript.Json.Printer
import SiteScript.Proofs.Json.Members

/-!
# Reading written JSON

The reader takes back what `Json.compact` writes of a value without numbers, its objects with their
members sorted (`parse_compact`), and so it does with any other way of writing strings that is read
back (`parse_printWith`).  A written character is read as itself, a written value is read up to its
own end, whatever follows it.
-/

namespace SiteScript.Json

/-! ## Strings -/

theorem hexValue?_hexDigit : ∀ n < 16, hexValue? (hexDigit n) = some n := by
  decide

theorem utf8Size_hexDigit : ∀ n < 16, (hexDigit n).utf8Size = 1 := by
  decide

theorem readHex_digits {n : Nat} (h : n < 256) (cs : List Char) :
    readHex ('0' :: '0' :: hexDigit (n / 16) :: hexDigit (n % 16) :: cs) = .ok n := by
  have hhigh : n / 16 < 16 := by omega
  have hlow : n % 16 < 16 := by omega
  have hzero : hexValue? '0' = some 0 := by decide
  have hsize : ('0' : Char).utf8Size = 1 := by decide
  have hsum : 16 * (n / 16) + n % 16 = n := by omega
  simp [readHex, utf8Length, hsize, utf8Size_hexDigit _ hhigh, utf8Size_hexDigit _ hlow, hzero,
    hexValue?_hexDigit _ hhigh, hexValue?_hexDigit _ hlow, hsum]

theorem readEscape_control {c : Char} (h : c < ' ') (cs : List Char) :
    readEscape ('u' :: '0' :: '0' :: hexDigit (c.toNat / 16) :: hexDigit (c.toNat % 16) :: cs) =
      .ok (c, 5) := by
  have hc : c.toNat < 32 := h
  have htrailing : isTrailingSurrogate c.toNat = false := by
    simp [isTrailingSurrogate]
    omega
  have hleading : isLeadingSurrogate c.toNat = false := by
    simp [isLeadingSurrogate]
    omega
  rw [readEscape, readHex_digits (by omega)]
  simp [bind, Except.bind, htrailing, hleading]

/-- A written character is read as itself. -/
theorem readString_escapeChar (c : Char) (cs : List Char) :
    readString (escapeChar c ++ cs) = (readString cs).map fun (xs, rest) => (c :: xs, rest) := by
  have hescape (x : Char) (e : Char) (he : readEscape (e :: cs) = .ok (x, 1)) :
      readString ('\\' :: e :: cs) = (readString cs).map fun (xs, rest) => (x :: xs, rest) := by
    rw [readString, if_neg (by decide), if_pos rfl, he]
    rfl
  unfold escapeChar
  split_ifs with hq hb h8 hc hn hr ht hlt
  · rw [hq]
    exact hescape _ _ rfl
  · rw [hb]
    exact hescape _ _ rfl
  · rw [h8]
    exact hescape _ _ rfl
  · rw [hc]
    exact hescape _ _ rfl
  · rw [hn]
    exact hescape _ _ rfl
  · rw [hr]
    exact hescape _ _ rfl
  · rw [ht]
    exact hescape _ _ rfl
  · simp only [List.cons_append, List.nil_append]
    rw [readString, if_neg (by decide), if_pos rfl, readEscape_control hlt]
    rfl
  · rw [List.singleton_append, readString, if_neg hq, if_neg hb, if_neg hlt]

/-- A written string is read back up to its closing quote. -/
theorem readString_escape (s rest : List Char) :
    readString (escape s ++ '"' :: rest) = .ok (s, rest) := by
  induction s with
  | nil => rw [escape, List.flatMap_nil, List.nil_append, readString, if_pos rfl]
  | cons c s ih =>
    rw [escape, List.flatMap_cons, List.append_assoc, readString_escapeChar, ← escape, ih]
    rfl

/-! ## Values -/

/-- A value without numbers whose arrays and objects are nested at most some levels deep. -/
inductive Readable : Nat → Json → Prop where
  | null {depth : Nat} : Readable depth null
  | bool {depth : Nat} (b : Bool) : Readable depth (bool b)
  | str {depth : Nat} (s : String) : Readable depth (str s)
  | arr {depth : Nat} {xs : List Json} (h : ∀ x ∈ xs, Readable depth x) :
    Readable (depth + 1) (arr xs)
  | obj {depth : Nat} {ms : Members} (h : ∀ m ∈ ms, Readable depth m.2) :
    Readable (depth + 1) (obj ms)

theorem Readable.mono {depth larger : Nat} (hle : depth ≤ larger) {x : Json}
    (h : Readable depth x) : Readable larger x := by
  induction h generalizing larger with
  | null => exact .null
  | bool b => exact .bool b
  | str s => exact .str s
  | arr h ih =>
    obtain ⟨larger, rfl⟩ := Nat.exists_eq_add_of_lt hle
    exact .arr fun x hx => ih x hx (Nat.le_add_right _ _)
  | obj h ih =>
    obtain ⟨larger, rfl⟩ := Nat.exists_eq_add_of_lt hle
    exact .obj fun m hm => ih m hm (Nat.le_add_right _ _)

theorem Readable.canonical {depth : Nat} {x : Json} (h : Readable depth x) :
    Readable depth x.canonical := by
  induction h with
  | null => rw [Json.canonical]; exact .null
  | bool b => rw [Json.canonical]; exact .bool b
  | str s => rw [Json.canonical]; exact .str s
  | arr h ih =>
    rw [Json.canonical, canonicalItems_eq_map]
    apply Readable.arr
    intro x hx
    obtain ⟨y, hy, rfl⟩ := List.mem_map.1 hx
    exact ih y hy
  | obj h ih =>
    rw [Json.canonical]
    apply Readable.obj
    intro m hm
    obtain ⟨n, hn, rfl⟩ := mem_ofList_canonicalMembers hm
    exact ih n hn

theorem skipSpace_cons {c : Char} (h : isSpace c = false) (cs : List Char) :
    skipSpace (c :: cs) = c :: cs := by
  simp [skipSpace, h]

/-! ## Texts of values -/

/-- A way of writing strings that is read back, whatever follows a string. -/
def WritesStrings (write : String → List Char) : Prop :=
  ∀ s rest, ∃ cs, write s ++ rest = '"' :: cs ∧ readString cs = .ok (s.toList, rest)

mutual

/-- A value without spaces, with its strings written in some way. -/
def printWith (write : String → List Char) : Json → List Char
  | null => "null".toList
  | bool b => (if b then "true" else "false").toList
  | num n => n.text
  | str s => write s
  | arr xs => '[' :: printItemsWith write xs ++ [']']
  | obj ms => '\x7b' :: printMembersWith write ms ++ ['\x7d']

/-- Items with commas between them. -/
def printItemsWith (write : String → List Char) : List Json → List Char
  | [] => []
  | [x] => printWith write x
  | x :: xs => printWith write x ++ ',' :: printItemsWith write xs

/-- Members with commas between them. -/
def printMembersWith (write : String → List Char) : Members → List Char
  | [] => []
  | [(k, x)] => write k ++ ':' :: printWith write x
  | (k, x) :: ms => write k ++ ':' :: printWith write x ++ ',' :: printMembersWith write ms

end

mutual

theorem printWith_quoted : ∀ x : Json, printWith quoted x = x.print
  | null | bool _ | num _ | str _ => by simp only [printWith, print]
  | arr xs => by rw [printWith, print, printItemsWith_quoted xs]
  | obj ms => by rw [printWith, print, printMembersWith_quoted ms]

theorem printItemsWith_quoted : ∀ xs : List Json, printItemsWith quoted xs = printItems xs
  | [] => rfl
  | [x] => by rw [printItemsWith, printItems, printWith_quoted x]
  | x :: y :: xs => by
    rw [printItemsWith, printItems, printWith_quoted x, printItemsWith_quoted (y :: xs)]
    all_goals exact List.cons_ne_nil y xs

theorem printMembersWith_quoted : ∀ ms : Members, printMembersWith quoted ms = printMembers ms
  | [] => rfl
  | [(k, x)] => by rw [printMembersWith, printMembers, printWith_quoted x]
  | (k, x) :: m :: ms => by
    rw [printMembersWith, printMembers, printWith_quoted x, printMembersWith_quoted (m :: ms)]
    all_goals exact List.cons_ne_nil m ms

end

theorem writesStrings_quoted : WritesStrings quoted := by
  intro s rest
  refine ⟨escape s.toList ++ '"' :: rest, ?_, readString_escape s.toList rest⟩
  simp [quoted]

section

variable {write : String → List Char}

/-- A reader reads back a value, whatever follows it. -/
def ReadsBack (write : String → List Char) (value : Reader Json) (x : Json) : Prop :=
  ∀ rest, value (printWith write x ++ rest) = .ok (x.canonical, rest)

theorem ReadsBack.word (inner : Option (Reader Json)) :
    ReadsBack write (readWith inner) null ∧ ∀ b, ReadsBack write (readWith inner) (bool b) := by
  refine ⟨fun rest => ?_, fun b rest => ?_⟩
  · simp [printWith, readWith, skipSpace, isSpace, readWord, canonical]
  · cases b <;> simp [printWith, readWith, skipSpace, isSpace, readWord, canonical]

theorem readItems_last {value : Reader Json} {cs rest : List Char} {x : Json} (fuel : Nat)
    (h : value cs = .ok (x, ']' :: rest)) : readItems value (fuel + 1) cs = .ok ([x], rest) := by
  rw [readItems, h]
  simp only [bind, Except.bind, skipSpace_cons (c := ']') (by decide)]

theorem readItems_comma {value : Reader Json} {cs ds : List Char} {x : Json} {c : Char}
    (fuel : Nat) (h : value cs = .ok (x, ',' :: c :: ds)) (hspace : isSpace c = false)
    (hc : c ≠ ']') :
    readItems value (fuel + 1) cs =
      (readItems value fuel (c :: ds)).map fun (xs, rest) => (x :: xs, rest) := by
  rw [readItems, h]
  simp only [bind, Except.bind, skipSpace_cons (c := ',') (by decide), skipSpace_cons hspace]
  split
  · next heq => cases heq
  · next heq =>
    cases heq
    exact absurd rfl hc
  · cases readItems value fuel (c :: ds) <;> rfl

theorem readMembers_last {value : Reader Json} {cs rest : List Char} {m : String × Json}
    (fuel : Nat) (h : readMember value cs = .ok (m, '\x7d' :: rest)) :
    readMembers value (fuel + 1) cs = .ok ([m], rest) := by
  rw [readMembers, h]
  simp only [bind, Except.bind, skipSpace_cons (c := '\x7d') (by decide)]

theorem readMembers_comma {value : Reader Json} {cs ds : List Char} {m : String × Json}
    (fuel : Nat) (h : readMember value cs = .ok (m, ',' :: '"' :: ds)) :
    readMembers value (fuel + 1) cs =
      (readMembers value fuel ('"' :: ds)).map fun (ms, rest) => (m :: ms, rest) := by
  rw [readMembers, h]
  simp only [bind, Except.bind, skipSpace_cons (c := ',') (by decide),
    skipSpace_cons (c := '"') (by decide)]
  split
  · next heq => cases heq
  · next heq => cases heq
  · cases readMembers value fuel ('"' :: ds) <;> rfl

variable (hw : WritesStrings write)

include hw

theorem Readable.exists_printWith_eq_cons {depth : Nat} {x : Json} (h : Readable depth x) :
    ∃ c cs, printWith write x = c :: cs ∧ isSpace c = false ∧ c ≠ ']' := by
  cases h with
  | null => exact ⟨'n', ['u', 'l', 'l'], by rw [printWith]; rfl, by decide, by decide⟩
  | bool b =>
    cases b
    · exact ⟨'f', ['a', 'l', 's', 'e'], by rw [printWith]; rfl, by decide, by decide⟩
    · exact ⟨'t', ['r', 'u', 'e'], by rw [printWith]; rfl, by decide, by decide⟩
  | str s =>
    obtain ⟨cs, hcs, -⟩ := hw s []
    rw [List.append_nil] at hcs
    exact ⟨'"', cs, by rw [printWith, hcs], by decide, by decide⟩
  | arr h => exact ⟨'[', _, by rw [printWith]; rfl, by decide, by decide⟩
  | obj h => exact ⟨'\x7b', _, by rw [printWith]; rfl, by decide, by decide⟩

theorem exists_printItems_eq_cons {depth : Nat} {x : Json} (h : Readable depth x)
    (xs : List Json) :
    ∃ c cs, printItemsWith write (x :: xs) = c :: cs ∧ isSpace c = false ∧ c ≠ ']' := by
  obtain ⟨c, cs, hx, hspace, hc⟩ := h.exists_printWith_eq_cons hw
  cases xs with
  | nil => exact ⟨c, cs, by rw [printItemsWith, hx], hspace, hc⟩
  | cons y ys =>
    refine ⟨c, cs ++ ',' :: printItemsWith write (y :: ys), ?_, hspace, hc⟩
    rw [printItemsWith, hx, List.cons_append]
    exact List.cons_ne_nil y ys

/-- The items of a written array are read back up to its bracket. -/
theorem readItems_printItems {depth : Nat} {value : Reader Json} (x : Json) (xs : List Json)
    (hr : ∀ y ∈ x :: xs, Readable depth y) (hv : ∀ y ∈ x :: xs, ReadsBack write value y)
    (rest : List Char) (fuel : Nat) (hf : xs.length ≤ fuel) :
    readItems value (fuel + 1) (printItemsWith write (x :: xs) ++ ']' :: rest) =
      .ok (canonicalItems (x :: xs), rest) := by
  induction xs generalizing x fuel with
  | nil =>
    rw [printItemsWith]
    exact readItems_last fuel (hv x List.mem_cons_self _)
  | cons y ys ih =>
    obtain ⟨fuel, rfl⟩ := Nat.exists_eq_add_of_lt hf
    obtain ⟨c, cs, hy, hspace, hc⟩ := exists_printItems_eq_cons hw (hr y (by simp)) ys
    have htail := ih y (fun z hz => hr z (List.mem_cons_of_mem _ hz))
      (fun z hz => hv z (List.mem_cons_of_mem _ hz)) _ (Nat.le_of_succ_le_succ hf)
    have hx := hv x List.mem_cons_self (',' :: (printItemsWith write (y :: ys) ++ ']' :: rest))
    rw [hy, List.cons_append] at hx htail
    rw [printItemsWith, List.append_assoc, List.cons_append, hy, List.cons_append,
      readItems_comma _ hx hspace hc, htail]
    · rw [canonicalItems]
      rfl
    · exact List.cons_ne_nil y ys

theorem readMember_append {value : Reader Json} {x : Json} (h : ReadsBack write value x) (k : String)
    (rest : List Char) :
    readMember value (write k ++ ':' :: (printWith write x ++ rest)) = .ok ((k, x.canonical), rest) := by
  obtain ⟨cs, hcs, hread⟩ := hw k (':' :: (printWith write x ++ rest))
  rw [hcs, readMember, hread]
  simp only [bind, Except.bind, skipSpace_cons (c := ':') (by decide)]
  rw [h rest, String.ofList_toList]

theorem exists_printMembers_eq_cons (m : String × Json) (ms : Members) :
    ∃ cs, printMembersWith write (m :: ms) = '"' :: cs := by
  obtain ⟨k, x⟩ := m
  cases ms with
  | nil =>
    obtain ⟨cs, hcs, -⟩ := hw k (':' :: printWith write x)
    exact ⟨cs, by rw [printMembersWith, hcs]⟩
  | cons n ns =>
    obtain ⟨cs, hcs, -⟩ := hw k (':' :: printWith write x ++ ',' :: printMembersWith write (n :: ns))
    refine ⟨cs, ?_⟩
    rw [printMembersWith, List.append_assoc, hcs]
    exact List.cons_ne_nil n ns

/-- The members of a written object are read back up to its brace. -/
theorem readMembers_printMembers {value : Reader Json} (m : String × Json) (ms : Members)
    (hv : ∀ n ∈ m :: ms, ReadsBack write value n.2) (rest : List Char) (fuel : Nat)
    (hf : ms.length ≤ fuel) :
    readMembers value (fuel + 1) (printMembersWith write (m :: ms) ++ '\x7d' :: rest) =
      .ok (canonicalMembers (m :: ms), rest) := by
  induction ms generalizing m fuel with
  | nil =>
    rw [printMembersWith, List.append_assoc, List.cons_append]
    exact readMembers_last fuel (readMember_append hw (hv m List.mem_cons_self) m.1 _)
  | cons n ns ih =>
    obtain ⟨fuel, rfl⟩ := Nat.exists_eq_add_of_lt hf
    obtain ⟨cs, hn⟩ := exists_printMembers_eq_cons hw n ns
    have htail := ih n (fun o ho => hv o (List.mem_cons_of_mem _ ho)) _
      (Nat.le_of_succ_le_succ hf)
    have hm := readMember_append hw (hv m List.mem_cons_self) m.1
      (',' :: (printMembersWith write (n :: ns) ++ '\x7d' :: rest))
    rw [hn, List.cons_append] at hm htail
    rw [printMembersWith]
    · simp only [List.append_assoc, List.cons_append]
      rw [hn, List.cons_append, readMembers_comma _ hm, htail, canonicalMembers]
      rfl
    · exact List.cons_ne_nil n ns

theorem length_le_length_printItems {depth : Nat} (x : Json) (xs : List Json)
    (hr : ∀ y ∈ x :: xs, Readable depth y) : xs.length < (printItemsWith write (x :: xs)).length := by
  induction xs generalizing x with
  | nil =>
    obtain ⟨c, cs, hx, -⟩ := exists_printItems_eq_cons hw (hr x List.mem_cons_self) []
    rw [hx]
    exact Nat.succ_pos _
  | cons y ys ih =>
    have hlt := ih y fun z hz => hr z (List.mem_cons_of_mem _ hz)
    rw [printItemsWith]
    · simp only [List.length_append, List.length_cons]
      omega
    · exact List.cons_ne_nil y ys

theorem length_le_length_printMembers (m : String × Json) (ms : Members) :
    ms.length < (printMembersWith write (m :: ms)).length := by
  induction ms generalizing m with
  | nil =>
    obtain ⟨cs, hm⟩ := exists_printMembers_eq_cons hw m []
    rw [hm]
    exact Nat.succ_pos _
  | cons n ns ih =>
    have hlt := ih n
    rw [printMembersWith]
    · simp only [List.length_append, List.length_cons]
      omega
    · exact List.cons_ne_nil n ns

theorem ReadsBack.str (inner : Option (Reader Json)) (s : String) :
    ReadsBack write (readWith inner) (str s) := by
  intro rest
  obtain ⟨cs, hcs, hread⟩ := hw s rest
  rw [printWith, hcs, readWith, skipSpace_cons (by decide)]
  simp only [bind, Except.bind, hread, String.ofList_toList, canonical]

theorem readArray_printItems {depth : Nat} {value : Reader Json} {xs : List Json}
    (hr : ∀ x ∈ xs, Readable depth x) (hv : ∀ x ∈ xs, ReadsBack write value x) (rest : List Char) :
    readArray value (printItemsWith write xs ++ ']' :: rest) = .ok (arr (canonicalItems xs), rest) := by
  cases xs with
  | nil =>
    rw [printItemsWith, List.nil_append, readArray, skipSpace_cons (by decide), canonicalItems]
    rfl
  | cons x xs =>
    obtain ⟨c, cs, hx, hspace, hc⟩ := exists_printItems_eq_cons hw (hr x List.mem_cons_self) xs
    obtain ⟨fuel, hfuel⟩ : ∃ n, (printItemsWith write (x :: xs) ++ ']' :: rest).length = n + 1 :=
      ⟨_, by rw [hx, List.cons_append, List.length_cons]⟩
    have hlt := length_le_length_printItems hw x xs hr
    have hitems := readItems_printItems hw x xs hr hv rest fuel (by simp at hfuel; omega)
    rw [← hfuel] at hitems
    rw [hx, List.cons_append] at hitems ⊢
    simp only [readArray, skipSpace_cons hspace]
    split
    · next heq => cases heq
    · next heq =>
      cases heq
      exact absurd rfl hc
    · rw [hitems]
      rfl

theorem readObject_printMembers {value : Reader Json} {ms : Members}
    (hv : ∀ m ∈ ms, ReadsBack write value m.2) (rest : List Char) :
    readObject value (printMembersWith write ms ++ '\x7d' :: rest) =
      .ok (obj (Members.ofList (canonicalMembers ms)), rest) := by
  cases ms with
  | nil =>
    rw [printMembersWith, List.nil_append, readObject, skipSpace_cons (by decide), canonicalMembers]
    rfl
  | cons m ms =>
    obtain ⟨cs, hm⟩ := exists_printMembers_eq_cons hw m ms
    obtain ⟨fuel, hfuel⟩ : ∃ n, (printMembersWith write (m :: ms) ++ '\x7d' :: rest).length = n + 1 :=
      ⟨_, by rw [hm, List.cons_append, List.length_cons]⟩
    have hlt := length_le_length_printMembers hw m ms
    have hmembers := readMembers_printMembers hw m ms hv rest fuel (by simp at hfuel; omega)
    rw [← hfuel] at hmembers
    rw [hm, List.cons_append] at hmembers ⊢
    simp only [readObject, skipSpace_cons (c := '"') (by decide)]
    split
    · next heq => cases heq
    · next heq => cases heq
    · rw [hmembers]
      rfl

/-- A written value is read back up to its end, its members sorted. -/
theorem readValue_printWith {depth : Nat} {x : Json} (h : Readable depth x) :
    ReadsBack write (readValue depth) x := by
  induction depth generalizing x with
  | zero =>
    cases h with
    | null => exact (ReadsBack.word none).1
    | bool b => exact (ReadsBack.word none).2 b
    | str s => exact ReadsBack.str hw none s
  | succ depth ih =>
    rw [readValue]
    cases h with
    | null => exact (ReadsBack.word _).1
    | bool b => exact (ReadsBack.word _).2 b
    | str s => exact ReadsBack.str hw _ s
    | arr hr =>
      intro rest
      rw [printWith, readWith, List.append_assoc, List.cons_append, skipSpace_cons (by decide)]
      exact readArray_printItems hw hr (fun x hx => ih (hr x hx)) rest
    | obj hr =>
      intro rest
      rw [printWith, readWith, List.append_assoc, List.cons_append, skipSpace_cons (by decide)]
      exact readObject_printMembers hw (fun m hm => ih (hr m hm)) rest

/-- The text of a value without numbers holds the value with the members of its objects sorted. -/
theorem parse_printWith {x : Json} (h : Readable maxDepth x) :
    parse (String.ofList (printWith write x)) = .ok x.canonical := by
  have hx := readValue_printWith hw h []
  rw [List.append_nil] at hx
  unfold parse readText
  rw [String.toList_ofList, hx]
  rfl

end

theorem parse_compact {x : Json} (h : Readable maxDepth x) : parse x.compact = .ok x.canonical := by
  rw [compact, ← printWith_quoted]
  exact parse_printWith writesStrings_quoted h

end SiteScript.Json
