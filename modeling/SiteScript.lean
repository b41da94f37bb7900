import SiteScript.CommandLine.Arguments
import SiteScript.CommandLine.Folder
import SiteScript.CommandLine.Run
import SiteScript.Decimal.Binary64
import SiteScript.Decimal.Numeral
import SiteScript.Decimal.Shortest
import SiteScript.Decimal.Text
import SiteScript.Except
import SiteScript.Fault
import SiteScript.InPlace
import SiteScript.Json.Basic
import SiteScript.Json.Members
import SiteScript.Json.Number
import SiteScript.Json.Parser
import SiteScript.Json.Position
import SiteScript.Json.Printer
import SiteScript.Json.Quoted
import SiteScript.Json.Record
import SiteScript.Json.Shape
import SiteScript.Main
import SiteScript.Proofs.CommandLine.Agreement
import SiteScript.Proofs.CommandLine.Arguments
import SiteScript.Proofs.CommandLine.Folder
import SiteScript.Proofs.Json.Acceptance
import SiteScript.Proofs.Json.Inert
import SiteScript.Proofs.Json.Members
import SiteScript.Proofs.Json.Parts
import SiteScript.Proofs.Json.Record
import SiteScript.Proofs.Json.Rereading
import SiteScript.Proofs.Json.Roundtrip
import SiteScript.Proofs.Layout.Context
import SiteScript.Proofs.Layout.Cursor
import SiteScript.Proofs.Layout.Levels
import SiteScript.Proofs.Layout.Literals
import SiteScript.Proofs.Layout.Relayout
import SiteScript.Proofs.Layout.Shown
import SiteScript.Proofs.Layout.Transcript
import SiteScript.Proofs.Script.Block
import SiteScript.Proofs.Script.Call
import SiteScript.Proofs.Script.Grammar
import SiteScript.Proofs.Script.Literal
import SiteScript.Proofs.Script.Pattern
import SiteScript.Proofs.Script.SingleQuoted
import SiteScript.Proofs.Script.Source
import SiteScript.Proofs.Script.Token
import SiteScript.Proofs.Script.TokenLayout
import SiteScript.Proofs.Site.Assembly
import SiteScript.Proofs.Site.Authentication
import SiteScript.Proofs.Site.Building
import SiteScript.Proofs.Site.Bulk
import SiteScript.Proofs.Site.Construction
import SiteScript.Proofs.Site.Draft
import SiteScript.Proofs.Site.Equality
import SiteScript.Proofs.Site.Exchange
import SiteScript.Proofs.Site.Inert
import SiteScript.Proofs.Site.Isolation
import SiteScript.Proofs.Site.Loading
import SiteScript.Proofs.Site.Naming
import SiteScript.Proofs.Site.Preview
import SiteScript.Proofs.Site.Reformat
import SiteScript.Proofs.Site.Reload
import SiteScript.Proofs.Site.Restriction
import SiteScript.Proofs.Site.Session
import SiteScript.Proofs.Site.Traversal
import SiteScript.Proofs.Step.Edits
import SiteScript.Proofs.Step.Extraction
import SiteScript.Proofs.Step.FieldList
import SiteScript.Proofs.Step.Inert
import SiteScript.Proofs.Step.ListTokens
import SiteScript.Proofs.Step.Parts
import SiteScript.Proofs.Step.PickRun
import SiteScript.Proofs.Step.Picking
import SiteScript.Proofs.Step.Rebuild
import SiteScript.Proofs.Step.Repick
import SiteScript.Proofs.Step.Requirements
import SiteScript.Proofs.Step.Scoping
import SiteScript.Proofs.Step.Shape
import SiteScript.Proofs.Step.Stored
import SiteScript.Proofs.Step.Tokens
import SiteScript.Proofs.Step.Verdict
import SiteScript.Proofs.Text.Lines
import SiteScript.Schema.Basic
import SiteScript.Schema.Records
import SiteScript.Script.Layout
import SiteScript.Script.Literal
import SiteScript.Script.Template
import SiteScript.Script.Width
import SiteScript.Site.Basic
import SiteScript.Site.Definition
import SiteScript.Site.Editing
import SiteScript.Site.Journal
import SiteScript.Site.Script
import SiteScript.Step.Action
import SiteScript.Step.Basic
import SiteScript.Step.Definition
import SiteScript.Step.Emission
import SiteScript.Step.Field
import SiteScript.Step.Kind
import SiteScript.Step.Picking
import SiteScript.Step.Rules
import SiteScript.Step.Target
import SiteScript.Step.Type
import SiteScript.Text.Blank
import SiteScript.Text.Lines
import SiteScript.Text.Quoted
import SiteScript.Text.Spelled
