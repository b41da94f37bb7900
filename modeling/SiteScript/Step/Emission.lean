import SiteScript.Json.Printer
import SiteScript.Script.Literal
import SiteScript.Script.Template
import SiteScript.Step.Rules

/-!
# Scripts of actions

Every type of step has a template. `Action.render` puts an action's attributes into it; a user's
text gets into a script only as the content of a literal or within the list of fields.
-/

namespace SiteScript

/-! ## Lists in a script -/

/-- The entries of the map that fills a form, one to a line. -/
def FormField.entries (fs : List FormField) : String :=
  ",\n".intercalate (fs.map fun f => Literal.quote f.key ++ ": " ++ Literal.quote f.value)

/-- Calls that wait for selectors, one to a line. -/
def waits (selectors : List String) : String :=
  "\n".intercalate (selectors.map fun s => "this.waitForSelector(" ++ Literal.quote s ++ ");")

/-- Spell out the two line terminators that JSON text may hold and a script may not. -/
def spellSeparators (cs : List Char) : List Char :=
  cs.flatMap fun c =>
    if c = '\u2028' then "\\u2028".toList else if c = '\u2029' then "\\u2029".toList else [c]

/-- Scrape fields as a literal of the script. -/
def ScrapeField.literal (fs : List ScrapeField) : String :=
  String.ofList (spellSeparators (Json.arr (fs.map ScrapeField.record.write)).print)

/-! ## Templates -/

namespace StepType

open Piece

/-- Click on an element once it is there. -/
def clickTemplate : Template :=
  .ofLines [
    [text "casper.then(function() \x7b"],
    [text "    this.waitForSelector('", slot "key", text "', function() \x7b"],
    [text "        this.click('", slot "key", text "');"],
    [text "    \x7d);"],
    [text "\x7d);"]]

/-- Set the value of a control and tell the page. -/
def selectTemplate : Template :=
  .ofLines [
    [text "casper.then(function() \x7b"],
    [text "    this.waitForSelector('", slot "key", text "', function() \x7b"],
    [text "        this.evaluate(function(selector, value) \x7b"],
    [text "            var element = document.querySelector(selector);"],
    [text "            element.value = value;"],
    [text "            var event = document.createEvent('HTMLEvents');"],
    [text "            event.initEvent('change', true, false);"],
    [text "            element.dispatchEvent(event);"],
    [text "        \x7d, '", slot "key", text "', '", slot "value", text "');"],
    [text "    \x7d);"],
    [text "\x7d);"]]

/-- Fill in the form of the page. -/
def formTemplate : Template :=
  .ofLines [
    [text "casper.then(function() \x7b"],
    [text "    this.waitForSelector('form', function() \x7b"],
    [text "        this.fill('form', \x7b"],
    [slot "fields"],
    [text "        \x7d, ", slot "submit", text ");"],
    [text "    \x7d);"],
    [text "\x7d);"]]

/-- Fill in the form of a selector. -/
def formSelectorTemplate : Template :=
  .ofLines [
    [text "casper.then(function() \x7b"],
    [text "    this.waitForSelector('", slot "key", text "', function() \x7b"],
    [text "        this.fill('", slot "key", text "', \x7b"],
    [slot "fields"],
    [text "        \x7d, ", slot "submit", text ");"],
    [text "    \x7d);"],
    [text "\x7d);"]]

/-- Take the fields from the page. -/
def scrapeTemplate : Template :=
  .ofLines [
    [text "casper.then(function() \x7b"],
    [slot "waits"],
    [text "    this.then(function() \x7b"],
    [text "        var data = this.evaluate(function(fields) \x7b"],
    [text "            var record = \x7b\x7d;"],
    [text "            fields.forEach(function(field) \x7b"],
    [text "                var element = document.querySelector(field.key);"],
    [text "                if (!element) \x7b"],
    [text "                    record[field.name] = null;"],
    [text "                \x7d else if (field.attribute === 'text') \x7b"],
    [text "                    record[field.name] = element.textContent.trim();"],
    [text "                \x7d else if (field.attribute === 'html') \x7b"],
    [text "                    record[field.name] = element.innerHTML;"],
    [text "                \x7d else \x7b"],
    [text "                    record[field.name] = element.getAttribute(field.attribute);"],
    [text "                \x7d"],
    [text "            \x7d);"],
    [text "            return record;"],
    [text "        \x7d, ", slot "fields", text ");"],
    [text "        this.echo(JSON.stringify(\x7b'", slot "name", text "': data\x7d));"],
    [text "    \x7d);"],
    [text "\x7d);"]]

/-- Take the fields from every element of a container. -/
def selectorTemplate : Template :=
  .ofLines [
    [text "casper.then(function() \x7b"],
    [slot "waits"],
    [text "    this.then(function() \x7b"],
    [text "        var data = this.evaluate(scrapeWithin, '", slot "container", text "', ",
      slot "fields", text ");"],
    [text "        this.echo(JSON.stringify(\x7b'", slot "name", text "': data\x7d));"],
    [text "    \x7d);"],
    [text "\x7d);"]]

/-- The lines of the function that the scripts of selector steps call. -/
def helperLines : List String :=
  ["function scrapeWithin(container, fields) \x7b",
    "    var roots = container ? " ++
      "Array.prototype.slice.call(document.querySelectorAll(container)) : [document];",
    "    return roots.map(function(root) \x7b",
    "        var record = \x7b\x7d;",
    "        fields.forEach(function(field) \x7b",
    "            var element = root.querySelector(field.key);",
    "            if (!element) \x7b",
    "                record[field.name] = null;",
    "            \x7d else if (field.attribute === 'text') \x7b",
    "                record[field.name] = element.textContent.trim();",
    "            \x7d else if (field.attribute === 'html') \x7b",
    "                record[field.name] = element.innerHTML;",
    "            \x7d else \x7b",
    "                record[field.name] = element.getAttribute(field.attribute);",
    "            \x7d",
    "        \x7d);",
    "        return record;",
    "    \x7d);",
    "\x7d"]

/-- The template of a type. -/
def template : StepType → Template
  | click => clickTemplate
  | select => selectTemplate
  | form => formTemplate
  | formSelector => formSelectorTemplate
  | scrape => scrapeTemplate
  | selector => selectorTemplate

end StepType

/-! ## Rendering -/

/-- The selectors that a selector step waits for: the container it looks in, or else every field. -/
def Selector.awaited (s : Selector) : List String :=
  if s.isScoped then [s.container] else s.fields.map ScrapeField.key

namespace Action

/-- The values of the slots in the template of an action of a step. -/
def bindings (step : String) : Action → Bindings
  | click a => [("key", Literal.escape a.key)]
  | select a => [("key", Literal.escape a.key), ("value", Literal.escape a.value)]
  | form a => [("fields", FormField.entries a.fields), ("submit", toString a.submit)]
  | formSelector a =>
    [("key", Literal.escape a.key), ("fields", FormField.entries a.fields),
      ("submit", toString a.submit)]
  | scrape a =>
    [("waits", waits (a.fields.map ScrapeField.key)), ("fields", ScrapeField.literal a.fields),
      ("name", Literal.escape step)]
  | selector a =>
    [("waits", waits a.awaited), ("container", Literal.escape a.container),
      ("fields", ScrapeField.literal a.fields), ("name", Literal.escape step)]

/-- The script of an action of a step, before it is laid out. -/
def render (step : String) (a : Action) : Except Fault String :=
  Template.supplant a.type.template.source (a.bindings step)

/-- The function that the script of an action calls, if it calls one. -/
def helper? : Action → Option String
  | selector _ => some ("\n".intercalate StepType.helperLines)
  | _ => none

end Action

end SiteScript
