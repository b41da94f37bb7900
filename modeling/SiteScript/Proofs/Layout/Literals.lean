import SiteScript.Proofs.Layout.Shown
import SiteScript.Proofs.Script.Literal

/-!
# Literals under the scanner

A user's text stands in a script between single quotes, or between double quotes in a list of fields
(`Literal.Shows`).  Whatever the text, the scanner reads it as one string: it is inside that string up to
the closing quote and back in code behind it, with the same brackets open (`ReadAsString`).  Two texts
therefore make no difference to what a line leaves open (`scan_literal`).
-/

namespace SiteScript

/-- How a script shows a text: between quotes of its own, or as a string in a list of fields. -/
inductive Literal.Shows (s : String) : List Char → Prop
  | quoted : Shows s (quote s).toList
  | listed : Shows s (spellSeparators (Json.str s).print)

theorem Literal.Shows.exists_text {s : String} {l : List Char} (h : Shows s l) :
    ∃ quote, IsQuote quote ∧ l = text quote s := by
  cases h with
  | quoted => exact ⟨'\'', .inl rfl, toList_quote s⟩
  | listed => exact ⟨'"', .inr rfl, spellSeparators_quoted s⟩

/-- A character is written with its quote at most at the end, behind a backslash. -/
theorem Literal.Writes.quote_not_mem {quote c : Char} {as bs : List Char}
    (h : Writes quote c (as ++ bs)) (hq : IsQuote quote) (hbs : bs ≠ []) : quote ∉ as := by
  have hb : quote ≠ '\\' := by
    rintro rfl
    exact absurd hq (by decide)
  generalize hxs : as ++ bs = xs at h
  cases h with
  | plain =>
    obtain ⟨rfl, -⟩ := (List.append_eq_singleton_iff.1 hxs).resolve_right fun he => hbs he.2
    exact List.not_mem_nil
  | short =>
    cases as with
    | nil => exact List.not_mem_nil
    | cons a as =>
      obtain ⟨rfl, htail⟩ := List.cons.inj hxs
      obtain ⟨rfl, -⟩ := (List.append_eq_singleton_iff.1 htail).resolve_right fun he => hbs he.2
      exact fun hmem => hb (List.mem_singleton.1 hmem)
  | @hex a b d e hx =>
    intro hmem
    have hmem : quote ∈ ['\\', 'u', a, b, d, e] := hxs ▸ List.mem_append_left _ hmem
    obtain h | h | hmem : quote = '\\' ∨ quote = 'u' ∨ quote ∈ [a, b, d, e] := by
      simpa using hmem
    · exact hb h
    · subst h
      exact absurd hq (by decide)
    · exact (ordinary_of_hexValue? (hexValue?_of_hexChar? hx quote hmem)).1 hq

namespace Layout

/-! ## Inside a literal -/

/-- The modes inside a string. -/
def Mode.InString (quote : Char) (m : Mode) : Prop := m = .string quote ∨ m = .escaped quote

/-- Without its quote a string is not left. -/
theorem scan_unquoted {quote : Char} {cs : List Char} (h : quote ∉ cs) (level : Nat)
    (stack : List Opened) {mode : Mode} (hmode : mode.InString quote) :
    ∃ m, Mode.InString quote m ∧ scan level mode stack cs = ⟨m, stack⟩ := by
  induction cs generalizing mode with
  | nil => exact ⟨mode, hmode, by rw [scan]⟩
  | cons c cs ih =>
    rw [List.mem_cons, not_or] at h
    obtain rfl | rfl := hmode
    · have hnext : (stringMode quote c).InString quote := by
        rw [stringMode, if_neg (Ne.symm h.1)]
        split_ifs
        · exact .inr rfl
        · exact .inl rfl
      rw [scan]
      exact ih h.2 hnext
    · rw [scan]
      exact ih h.2 (.inl rfl)

/-- Up to its closing quote a written text is inside the string. -/
theorem scan_partway {quote : Char} (hq : Literal.IsQuote quote) {s as bs : List Char}
    (h : s.flatMap (Literal.written quote) ++ [quote] = as ++ bs) (hbs : bs ≠ []) (level : Nat)
    (stack : List Opened) :
    ∃ m, Mode.InString quote m ∧ scan level (.string quote) stack as = ⟨m, stack⟩ := by
  induction s generalizing as with
  | nil =>
    obtain ⟨rfl, -⟩ := (List.append_eq_singleton_iff.1 h.symm).resolve_right fun he => hbs he.2
    exact ⟨.string quote, .inl rfl, by rw [scan]⟩
  | cons c s ih =>
    have hc := Literal.writes_written hq c
    rw [List.flatMap_cons, List.append_assoc, List.append_eq_append_iff] at h
    obtain ⟨as', rfl, hrest⟩ | ⟨bs', hchar, rfl⟩ := h
    · rw [hc.scan_append hq]
      exact ih hrest
    · by_cases hempty : bs' = []
      · rw [hempty, List.append_nil] at hchar
        have hwhole := hc.scan_append hq level stack []
        rw [List.append_nil, hchar] at hwhole
        exact ⟨.string quote, .inl rfl, by rw [hwhole, scan]⟩
      · rw [hchar] at hc
        exact scan_unquoted (hc.quote_not_mem hq hempty) level stack (.inl rfl)

/-- From code, a text is read as one string. -/
structure ReadAsString (level : Nat) (stack : List Opened) (l : List Char) : Prop where
  /-- Between its first and its last character the scanner is inside the string. -/
  inside : ∀ as bs, l = as ++ bs → as ≠ [] → bs ≠ [] →
    ∃ quote m, Mode.InString quote m ∧ scan level .code stack as = ⟨m, stack⟩
  /-- Behind its last character the scanner is back in code, with the same brackets open. -/
  closed : scan level .code stack l = ⟨.code, stack⟩
  /-- What follows is scanned as if it stood alone. -/
  behind : ∀ rest, scan level .code stack (l ++ rest) = scan level .code stack rest

theorem readAsString_of_shows {s : String} {l : List Char} (h : Literal.Shows s l) (level : Nat)
    (stack : List Opened) : ReadAsString level stack l := by
  obtain ⟨quote, hq, rfl⟩ := h.exists_text
  have hbehind := Literal.scan_text hq level stack s
  refine ⟨fun as bs hl has hbs => ?_, ?_, hbehind⟩
  · obtain ⟨a, as, rfl⟩ := List.exists_cons_of_ne_nil has
    obtain ⟨rfl, htail⟩ := List.cons.inj hl
    obtain ⟨m, hm, hscan⟩ := scan_partway hq htail hbs level stack
    have hopen : scan level .code stack (quote :: as) = scan level (.string quote) stack as := by
      obtain rfl | rfl := hq <;> rfl
    exact ⟨quote, m, hm, hopen.trans hscan⟩
  · have hend := hbehind []
    rwa [List.append_nil, scan] at hend

/-! ## Behind the beginning of a line -/

/-- A text that does not make a comment mark of a slash in front of it. -/
def Detached (t : List Char) : Prop := ∀ c ∈ t.head?, c ≠ '/' ∧ c ≠ '*'

theorem detached_append_of_shows {s : String} {l : List Char} (h : Literal.Shows s l)
    (rest : List Char) : Detached (l ++ rest) := by
  obtain ⟨quote, hq, rfl⟩ := h.exists_text
  intro c hc
  obtain rfl : quote = c := Option.some.inj hc
  obtain rfl | rfl := hq <;> decide

/-- Texts that are scanned alike from the code at the end of a beginning are scanned alike behind that
beginning.  Where the beginning runs into a line comment neither text is looked at. -/
theorem scan_append_congr {level : Nat} {mode : Mode} {opened stack : List Opened} {p : List Char}
    (hp : scan level mode opened p = ⟨.code, stack⟩) {t u : List Char} (ht : Detached t)
    (hu : Detached u) (h : scan level .code stack t = scan level .code stack u) :
    scan level mode opened (p ++ t) = scan level mode opened (p ++ u) := by
  fun_induction scan level mode opened p with
  | case1 mode opened =>
    cases hp
    exact h
  | case2 opened cs =>
    simp only [List.cons_append]
    rw [scan, scan]
  | case3 opened cs ih =>
    simp only [List.cons_append]
    rw [scan, scan, ih hp]
  | case4 opened c cs hslash hstar ih =>
    -- A slash at the end of the beginning stays one, for neither text completes a comment mark.
    have hmark {t : List Char} (ht : Detached t) {d : Char} (hd : d = '/' ∨ d = '*')
        (hcs : ∀ xs, c = '/' → cs = d :: xs → False) (xs : List Char) :
        c = '/' → cs ++ t = d :: xs → False := by
      intro hc he
      cases cs with
      | nil =>
        rw [List.nil_append] at he
        have hne := ht d (by rw [he]; rfl)
        exact hd.elim hne.1 hne.2
      | cons e es => exact hcs es hc (by rw [(List.cons.inj he).1])
    rw [List.cons_append, List.cons_append, scan, scan, ih hp]
    · exact hmark hu (.inl rfl) hslash
    · exact hmark hu (.inr rfl) hstar
    · exact hmark ht (.inl rfl) hslash
    · exact hmark ht (.inr rfl) hstar
  | case5 opened quote c cs ih | case6 opened quote c cs ih =>
    rw [List.cons_append, List.cons_append, scan, scan, ih hp]
  | case7 opened c cs ih | case8 opened c cs ih =>
    rw [List.cons_append, List.cons_append, scan, scan, ih hp]

/-- Where the beginning of a line ends in code, a literal is read as one string, leaves the line in code
with the same brackets open, and could be the literal of any other text: the line leaves the same open. -/
theorem scan_literal {level : Nat} {mode : Mode} {opened stack : List Opened} {p : List Char}
    (hp : scan level mode opened p = ⟨.code, stack⟩) {s : String} {l : List Char}
    (hl : Literal.Shows s l) :
    ReadAsString level stack l ∧ scan level mode opened (p ++ l) = ⟨.code, stack⟩ ∧
      ∀ s' l' rest, Literal.Shows s' l' →
        scan level mode opened (p ++ l ++ rest) = scan level mode opened (p ++ l' ++ rest) := by
  have hread := readAsString_of_shows hl level stack
  refine ⟨hread, ?_, fun s' l' rest hl' => ?_⟩
  · have hempty : scan level .code stack l = scan level .code stack [] := by rw [hread.closed, scan]
    have hdetached := detached_append_of_shows hl []
    rw [List.append_nil] at hdetached
    have hnil : Detached [] := fun c hc => absurd hc (Option.not_mem_none c)
    rw [scan_append_congr hp hdetached hnil hempty, List.append_nil, hp]
  · rw [List.append_assoc, List.append_assoc]
    refine scan_append_congr hp (detached_append_of_shows hl rest)
      (detached_append_of_shows hl' rest) ?_
    rw [hread.behind, (readAsString_of_shows hl' level stack).behind]

/-- The beginning of a line that opens two brackets and holds marks of comments and strings. -/
def busyStart : List Char := "call(['//', /* ( \" */ 8 / ".toList

/-- A text of everything that could end a literal or change what is open. -/
def busyText : String := "it's \"a\" \\ // /* ) ] \x7d \n \u2028"

theorem scan_literal_busy :
    scan 1 .code [] busyStart = ⟨.code, [⟨'[', 1⟩, ⟨'(', 1⟩]⟩ ∧
      scan 1 .code [] (busyStart ++ (Literal.quote busyText).toList) =
        ⟨.code, [⟨'[', 1⟩, ⟨'(', 1⟩]⟩ ∧
      scan 1 .code [] (busyStart ++ (Literal.quote busyText).toList ++ "]);".toList) =
        scan 1 .code [] (busyStart ++ spellSeparators (Json.str "").print ++ "]);".toList) := by
  have hstart : scan 1 .code [] busyStart = ⟨.code, [⟨'[', 1⟩, ⟨'(', 1⟩]⟩ := by rfl
  obtain ⟨-, hclosed, hsame⟩ := scan_literal hstart (.quoted (s := busyText))
  exact ⟨hstart, hclosed, hsame "" _ "]);".toList .listed⟩

end Layout

end SiteScript
