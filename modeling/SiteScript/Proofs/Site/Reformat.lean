import SiteScript.Proofs.Layout.Shown
import SiteScript.Proofs.Site.Assembly
import SiteScript.Proofs.Site.Isolation

/-!
# Changing the width of a script

The width that a script was laid out with leaves no trace when it is laid out with another one, unless
the script ends in an open block comment (`layout_compile`).  The script of a site never does, since all
texts of a user stand in string literals, and it does not depend on the width in which the scripts of
the steps are laid out before they are put into it.
-/

namespace SiteScript

open Template Token Layout

namespace Layout

/-- A script that leaves no comment open does not end with a blank line in one. -/
theorem not_openEnded {script : String} (h : (finish script).mode ≠ .comment) :
    ¬ OpenEnded (Text.lines script.toList) := by
  rintro ⟨hmode, -⟩
  rw [Cursor.state_foldl_next] at hmode
  exact h hmode

end Layout

/-- The text of plain tokens ends in code. -/
theorem Token.mode_finish {ts : List Token} (h : ∀ t ∈ ts, t.Plain) :
    (finish (String.ofList (text ts))).mode = .code := by
  have hlines : ∀ l ∈ Token.lines ts, ∀ t ∈ l, t.Plain :=
    fun l hl t ht => h t (mem_of_mem_lines hl ht)
  have hmode := (state_foldl_next_text hlines (c := .initial) rfl).1
  rw [Cursor.state_foldl_next, ← lines_text h] at hmode
  rw [finish, String.toList_ofList]
  exact hmode

namespace Site

/-- Drafts of a site with scripts of the steps in different widths have the same layouts. -/
theorem layout_draft (u v w : IndentWidth) (s : Site) :
    Layout.layout w (String.ofList (text (s.draft u))) =
      Layout.layout w (String.ofList (text (s.draft v))) := by
  have hrows (x : IndentWidth) : rows (text (s.draft x)) = s.groups.flatten := by
    rw [rows, lines_text (s.plain_draft x)]
    exact arrange_draft x s
  rw [Layout.layout, Layout.layout, String.toList_ofList, String.toList_ofList, hrows, hrows]

/-- A width absorbs the one before it.  A script that does not end in an open block comment, laid out
with one width and then with another, is the script laid out with the other at once.  The script of a
site ends in code, both before it is laid out as a whole and after that, and laying it out again gives
the script that the site has in the other width. -/
theorem layout_compile (v w : IndentWidth) :
    (∀ script : String, (finish script).mode ≠ .comment →
      Layout.layout w (Layout.layout v script) = Layout.layout w script) ∧
    ∀ s : Site, ∃ draft script, s.assemble v = .ok draft ∧ (finish draft).mode = .code ∧
      s.compile v = .ok script ∧ (finish script).mode = .code ∧
      s.compile w = .ok (Layout.layout w script) := by
  have habsorb {script : String} (h : (finish script).mode ≠ .comment) :
      Layout.layout w (Layout.layout v script) = Layout.layout w script :=
    layout_layout (not_openEnded h) w v
  refine ⟨fun _ => habsorb, fun s => ?_⟩
  have hdraft := Token.mode_finish (s.plain_draft v)
  have hcompile (x : IndentWidth) :
      s.compile x = .ok (Layout.layout x (String.ofList (text (s.draft x)))) := by
    rw [compile, assemble_eq_draft]
    rfl
  refine ⟨_, _, s.assemble_eq_draft v, hdraft, hcompile v, ?_, ?_⟩
  · rw [layout_text (s.plain_draft v)]
    exact Token.mode_finish (plain_layout (s.plain_draft v) v)
  · rw [hcompile w, habsorb (by rw [hdraft]; decide), s.layout_draft w v w]

theorem layout_compile_hostile :
    let script := "casper.then(function() \x7b\n/* a\n\nb */\nif (a) \x7b"
    (finish script).mode ≠ .comment ∧
      Layout.layout .two (Layout.layout .four script) = Layout.layout .two script ∧
      ∃ draft script, hostile.assemble .four = .ok draft ∧ (finish draft).mode = .code ∧
        hostile.compile .four = .ok script ∧ (finish script).mode = .code ∧
        hostile.compile .two = .ok (Layout.layout .two script) := by
  have hopen : (finish "casper.then(function() \x7b\n/* a\n\nb */\nif (a) \x7b").mode ≠ .comment := by
    decide
  exact ⟨hopen, (layout_compile .four .two).1 _ hopen, (layout_compile .four .two).2 hostile⟩

end Site

end SiteScript
