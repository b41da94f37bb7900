import SiteScript.Step.Definition

/-!
# Site definitions

A site definition is what an editor stores: a name, the page the run starts from, credentials for
that page, and step definitions in the order of the run.
-/

namespace SiteScript

/-- A user and a password. Either may be absent; an empty one counts as not set. -/
structure Credentials where
  user : Option String := none
  pass : Option String := none
deriving DecidableEq, Repr

namespace Credentials

/-- Credentials in JSON; what is absent is left out. -/
def record : Record Credentials where
  name := "Credentials"
  blank := {}
  members :=
    [.optional "user" (Json.asOption Json.asText) (fun s => s.map .str) user
        fun s c => { c with user := s },
      .optional "pass" (Json.asOption Json.asText) (fun s => s.map .str) pass
        fun s c => { c with pass := s }]

/-- Whether a user is set. -/
def userSet (c : Credentials) : Bool :=
  c.user.getD "" ≠ ""

/-- Whether a password is set. -/
def passSet (c : Credentials) : Bool :=
  c.pass.getD "" ≠ ""

/-- Whether neither is set. -/
def isEmpty (c : Credentials) : Bool :=
  !c.userSet && !c.passSet

end Credentials

/-- A site as it is stored. -/
structure SiteDefinition where
  name : String := ""
  url : String := ""
  credentials : Option Credentials := none
  steps : List StepDefinition := []
deriving DecidableEq

namespace SiteDefinition

/-- The blank site that an editor starts from; it has credentials, but neither is set. -/
def blank : SiteDefinition where
  credentials := some {}

/-- A definition in JSON; absent credentials are left out. -/
def record : Record SiteDefinition where
  name := "SiteDefinition"
  blank := {}
  members :=
    [.text "name" name fun s d => { d with name := s },
      .text "url" url fun s d => { d with url := s },
      .optional "credentials" (Json.asOption Credentials.record.read)
        (fun c => c.map Credentials.record.write) credentials
        fun c d => { d with credentials := c },
      .list "steps" StepDefinition.read StepDefinition.write steps
        fun ss d => { d with steps := ss }]

/-- The definition with a step put at the end as it is. -/
def withStep (d : SiteDefinition) (step : StepDefinition) : SiteDefinition :=
  { d with steps := d.steps ++ [step] }

end SiteDefinition

end SiteScript
