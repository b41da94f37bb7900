import SiteScript.Proofs.Script.Grammar

/-!
# Sources of templates

The templates of scripts are given by their parts, and a script is made of the source in which the
parts are spelled.  That source is read as the same parts, with texts that stand side by side in one
(`parse_source`), provided that no pair of braces begins in a text (`Legible`).  So what is made of
the source is what is made of the parts (`supplant_source`).
-/

namespace SiteScript.Template

/-- Whether the parts of `t` can be told apart in their source, behind the text `cs`. -/
def legible (cs : List Char) : Template → Bool
  | [] => (cut '\x7b' cs).isNone
  | .text content :: t => legible (cs ++ content.toList) t
  | .slot name :: t =>
    (cut '\x7b' cs).isNone && cs.getLast? != some '\x7b' && isName name.toList && legible [] t

/-- A template that can be read back from its source. -/
def Legible (t : Template) : Prop :=
  legible [] t = true

instance (t : Template) : Decidable t.Legible :=
  inferInstanceAs (Decidable (_ = _))

/-- The parts of `t` behind the text `cs`, with texts that stand side by side in one. -/
def merged (cs : List Char) : Template → Template
  | [] => ofText cs
  | .text content :: t => merged (cs ++ content.toList) t
  | .slot name :: t => ofText cs ++ .slot name :: merged [] t

theorem source_cons (p : Piece) (t : Template) : source (p :: t) = spell p ++ source t :=
  join_cons (spell p) (t.map spell)

theorem ofChars_source {cs : List Char} {t : Template} (h : legible cs t = true) :
    ofChars (cs ++ t.source.toList) = .ok (merged cs t) := by
  induction t generalizing cs with
  | nil =>
    have hsource : cs ++ (source []).toList = cs := List.append_nil cs
    rw [hsource, merged]
    exact ofChars_of_not_hasPair (cut_eq_none_iff.1 (Option.isNone_iff_eq_none.1 h))
  | cons p t ih =>
    cases p with
    | text content =>
      rw [source_cons, String.toList_append, ← List.append_assoc]
      exact ih h
    | slot name =>
      simp only [legible, Bool.and_eq_true, Option.isNone_iff_eq_none, bne_iff_ne] at h
      obtain ⟨⟨⟨hcut, hlast⟩, hname⟩, hrest⟩ := h
      have hcs : UpToPair '\x7b' cs := ⟨cut_eq_none_iff.1 hcut, hlast⟩
      let s : Slot := ⟨[], name.toList, [], nofun, isName_iff.1 hname, nofun⟩
      have hsource : (source (.slot name :: t)).toList =
          '\x7b' :: '\x7b' :: (s.padded ++ '\x7d' :: '\x7d' :: (source t).toList) := by
        simp [source_cons, spell, Slot.padded, s]
      rw [hsource, ofChars_slot hcs, ← List.nil_append (source t).toList, ih hrest, merged]
      simp only [Except.map, s, String.ofList_toList]

/-- A source is read as the parts that it was written of. -/
theorem parse_source {t : Template} (h : t.Legible) : parse t.source = .ok (merged [] t) :=
  ofChars_source h

/-! ## Rendering -/

theorem render_cons (p : Piece) (t : Template) (bs : Bindings) :
    render (p :: t) bs =
      renderPiece bs p >>= fun value => (render t bs).map fun rest => value ++ rest := by
  rw [render, List.mapM_cons, render]
  cases renderPiece bs p with
  | error e => rfl
  | ok value =>
    cases t.mapM (renderPiece bs) with
    | error e => rfl
    | ok values => exact congrArg Except.ok (join_cons value values)

theorem render_text_cons (content : String) (t : Template) (bs : Bindings) :
    render (.text content :: t) bs = (render t bs).map fun rest => content ++ rest := by
  rw [render_cons]
  rfl

theorem map_ofList_nil_append (answer : Except Fault String) :
    answer.map (fun rest => String.ofList [] ++ rest) = answer := by
  cases answer with
  | error e => rfl
  | ok rest => exact congrArg Except.ok String.empty_append

theorem render_ofText_append (cs : List Char) (t : Template) (bs : Bindings) :
    render (ofText cs ++ t) bs = (render t bs).map fun rest => String.ofList cs ++ rest := by
  rw [ofText]
  split_ifs with hcs
  · rw [hcs, map_ofList_nil_append]
    rfl
  · exact render_text_cons _ t bs

/-- Texts may stand side by side or in one. -/
theorem render_merged (cs : List Char) (t : Template) (bs : Bindings) :
    render (merged cs t) bs = (render t bs).map fun rest => String.ofList cs ++ rest := by
  induction t generalizing cs with
  | nil =>
    have htext := render_ofText_append cs [] bs
    rwa [List.append_nil] at htext
  | cons p t ih =>
    cases p with
    | text content =>
      rw [merged, ih, render_text_cons]
      cases render t bs with
      | error e => rfl
      | ok rest =>
        simp only [Except.map, String.ofList_append, String.ofList_toList, String.append_assoc]
    | slot name =>
      rw [merged, render_ofText_append, render_cons, render_cons, ih, map_ofList_nil_append]

/-- What is made of the source of a template is what is made of its parts. -/
theorem supplant_source {t : Template} (h : t.Legible) (bs : Bindings) :
    supplant t.source bs = t.render bs := by
  rw [supplant, parse_source h]
  exact (render_merged [] t bs).trans (map_ofList_nil_append _)

end SiteScript.Template
