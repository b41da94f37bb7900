import SiteScript.Fault
import SiteScript.Text.Blank
import SiteScript.Text.Lines

/-!
# Templates

A template is text with slots. In its source a slot is a name between two pairs of braces, with
blanks around the name or without. `Template.parse` reads a source, `Template.render` puts values
into the slots; a value is copied as it is, whatever braces it holds.
-/

namespace SiteScript

/-- A part of a template. -/
inductive Piece where
  /-- Text that is copied. -/
  | text (content : String)
  /-- A slot that takes a value. -/
  | slot (name : String)
deriving DecidableEq, Repr

/-- A template is the list of its parts. -/
abbrev Template := List Piece

/-- The values of slots by name; of several values for one name the last one counts. -/
abbrev Bindings := List (String × String)

/-- The value of a slot. -/
def Bindings.get? (bs : Bindings) (name : String) : Option String :=
  bs.reverse.lookup name

namespace Template

/-! ## Reading -/

/-- Cut a text at the first place where `c` stands twice. -/
def cut (c : Char) : List Char → Option (List Char × List Char)
  | x :: y :: cs =>
    if x = c ∧ y = c then some ([], cs)
    else (cut c (y :: cs)).map fun (before, after) => (x :: before, after)
  | _ => none

theorem length_lt_of_cut {c : Char} {cs before after : List Char}
    (h : cut c cs = some (before, after)) : after.length < cs.length := by
  induction cs generalizing before with
  | nil => simp [cut] at h
  | cons x cs ih =>
    cases cs with
    | nil => simp [cut] at h
    | cons y cs =>
      rw [cut] at h
      split at h
      · simp only [Option.some.injEq, Prod.mk.injEq] at h
        rw [← h.2]
        simp only [List.length_cons]
        omega
      · obtain ⟨⟨b, a⟩, hb, he⟩ := Option.map_eq_some_iff.1 h
        simp only [Prod.mk.injEq] at he
        have := ih (he.2 ▸ hb)
        simp only [List.length_cons] at this ⊢
        omega

/-- The characters of a slot's name are ASCII letters, digits and underscores. -/
def isNameChar (c : Char) : Bool :=
  c.isAlphanum || c = '_'

/-- Whether a text is the name of a slot. -/
def isName (cs : List Char) : Bool :=
  !cs.isEmpty && cs.all isNameChar

/-- Copied text as a template; no text is no part. -/
def ofText (cs : List Char) : Template :=
  if cs = [] then [] else [.text (String.ofList cs)]

/-- Read the source of a template. -/
def ofChars (cs : List Char) : Except Fault Template :=
  match _h : cut '\x7b' cs with
  | none => .ok (ofText cs)
  | some (before, inner) =>
    match _h' : cut '\x7d' inner with
    | none => .error (.unresolvedSlot (String.ofList (Text.firstLine inner)))
    | some (padded, rest) =>
      let name := Text.trim padded
      if isName name then
        (ofChars rest).map fun parts => ofText before ++ .slot (String.ofList name) :: parts
      else .error (.unresolvedSlot (String.ofList name))
termination_by cs.length
decreasing_by exact Nat.lt_trans (length_lt_of_cut _h') (length_lt_of_cut _h)

/-- Read the source of a template. -/
def parse (source : String) : Except Fault Template :=
  ofChars source.toList

/-- The names of the slots, in order and with repetitions. -/
def tokens (t : Template) : List String :=
  t.filterMap fun
    | .slot name => some name
    | .text _ => none

/-! ## Rendering -/

/-- What a part of a template becomes. -/
def renderPiece (bs : Bindings) : Piece → Except Fault String
  | .text content => .ok content
  | .slot name =>
    match bs.get? name with
    | some value => .ok value
    | none => .error (.unresolvedSlot name)

/-- The text of a template with values in its slots. -/
def render (t : Template) (bs : Bindings) : Except Fault String :=
  (t.mapM (renderPiece bs)).map String.join

/-- Read a source and render it. -/
def supplant (source : String) (bs : Bindings) : Except Fault String := do
  let t ← parse source
  t.render bs

/-! ## Writing templates -/

/-- A template from its lines; each line ends with a line feed. -/
def ofLines (ls : List Template) : Template :=
  ls.flatMap fun l => l ++ [.text "\n"]

/-- A part as a source spells it. -/
def spell : Piece → String
  | .text content => content
  | .slot name => "\x7b\x7b" ++ name ++ "\x7d\x7d"

/-- The source of a template. -/
def source (t : Template) : String :=
  String.join (t.map spell)

end Template

end SiteScript
