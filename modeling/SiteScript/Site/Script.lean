import SiteScript.Site.Basic

/-!
# Scripts of sites

`Site.compile` writes the script that runs a site: the frame with the helper functions of the steps,
the login, the start page and the scripts of the steps in it, laid out as a whole.
-/

namespace SiteScript

namespace Site

open Piece

/-- The frame of every script. -/
def frame : Template :=
  .ofLines [
    [text "var casper = require('casper').create(\x7b"],
    [text "    pageSettings: \x7b"],
    [text "        loadImages: false,"],
    [text "        loadPlugins: false"],
    [text "    \x7d"],
    [text "\x7d);"],
    [slot "helper_functions"],
    [text "casper.start();"],
    [slot "credentials"],
    [text "casper.thenOpen('", slot "url", text "');"],
    [slot "steps"],
    [text "casper.run(function() \x7b"],
    [text "    this.exit();"],
    [text "\x7d);"]]

/-- The line that logs in, empty without a login. -/
def loginLine : Option Login → String
  | some l =>
    "casper.setHttpAuth(" ++ Literal.quote l.user ++ ", " ++ Literal.quote l.pass ++ ");"
  | none => ""

variable {K : Kinds}

/-- The helper functions of the steps, one for each step that calls one. -/
def helpers (s : Site K) : String :=
  "\n".intercalate ((s.steps.filterMap Step.helper?).filter (· ≠ ""))

/-- The script of a site before it is laid out as a whole. -/
def assemble (w : IndentWidth) (s : Site K) : Except Fault String := do
  let steps ← s.steps.mapM (Step.script w)
  Template.supplant frame.source
    [("helper_functions", s.helpers), ("credentials", loginLine s.login),
      ("url", Literal.escape s.url), ("steps", "\n".intercalate steps)]

/-- The script of a site. -/
def compile (w : IndentWidth) (s : Site K) : Except Fault String :=
  (s.assemble w).map (Layout.layout w)

end Site

end SiteScript
