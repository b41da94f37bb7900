import SiteScript.Json.Parser
import SiteScript.Site.Definition
import SiteScript.Step.Basic

/-!
# Sites

A `Site` has a name, a start page, perhaps a login, and steps that have been checked. `Site.build`
makes one of a definition, `Site.ofJson` of any JSON value, `Site.ofText` of a text; each names the
first fault. `Site.buildWith` takes any registry. `Site.definition` is the snapshot by which sites are
compared.
-/

namespace SiteScript

/-- Credentials of which both are set. -/
structure Login where
  user : String
  pass : String
  user_ne : user ≠ ""
  pass_ne : pass ≠ ""

/-- The login of credentials of which both are set. -/
def Credentials.login? (c : Credentials) : Option Login :=
  if h : c.user.getD "" ≠ "" ∧ c.pass.getD "" ≠ "" then
    some ⟨c.user.getD "", c.pass.getD "", h.1, h.2⟩
  else none

/-- A login as credentials. -/
def Login.credentials (l : Login) : Credentials :=
  ⟨some l.user, some l.pass⟩

/-- A site that has been checked. -/
@[ext]
structure Site (K : Kinds := .builtin) where
  name : String
  url : String
  login : Option Login
  steps : List (Step K)
  named : name ≠ ""
  located : url ≠ ""
  settled : ∀ s ∈ steps, s.checked.Settled K

namespace Site

/-! ## Building -/

/-- The first fault of a site apart from its steps. -/
def headerFault? (name url : String) (credentials : Option Credentials) : Option Fault :=
  if name = "" then some (.required .siteName)
  else if url = "" then some (.required .siteUrl)
  else
    match credentials with
    | some c => if c.userSet = c.passSet then none else some .halfCredentials
    | none => none

theorem name_ne_of_headerFault? {name url : String} {credentials : Option Credentials}
    (h : headerFault? name url credentials = none) : name ≠ "" := by
  rintro rfl
  simp [headerFault?] at h

theorem url_ne_of_headerFault? {name url : String} {credentials : Option Credentials}
    (h : headerFault? name url credentials = none) : url ≠ "" := by
  rintro rfl
  unfold headerFault? at h
  split at h <;> simp at h

/-- Fail at the first fault of a definition apart from its steps. -/
def checkHeader (d : SiteDefinition) : Except Fault Unit :=
  match headerFault? d.name d.url d.credentials with
  | some fault => .error fault
  | none => .ok ()

theorem settled_of_mapM_create {K : Kinds} {r : Registry K} {ds : List StepDefinition}
    {steps : List (Step K)} (h : ds.mapM r.create = .ok steps) :
    ∀ s ∈ steps, s.checked.Settled K := by
  intro s hs
  obtain ⟨d, -, hd⟩ := Except.exists_of_mem_mapM h hs
  exact Registry.settled_of_create hd

/-- The site of a definition, with the step types of a registry. -/
def buildWith {K : Kinds} (r : Registry K) (d : SiteDefinition) : Except Fault (Site K) :=
  match h : headerFault? d.name d.url d.credentials with
  | some fault => .error fault
  | none =>
    match hsteps : d.steps.mapM r.create with
    | .error fault => .error fault
    | .ok steps =>
      .ok ⟨d.name, d.url, d.credentials.bind Credentials.login?, steps, name_ne_of_headerFault? h,
        url_ne_of_headerFault? h, settled_of_mapM_create hsteps⟩

/-- The site of a definition, with all step types. -/
def build (d : SiteDefinition) : Except Fault Site :=
  buildWith .full d

/-! ## Loading -/

/-- A site whose steps have not been looked at. -/
structure Outline where
  name : String := ""
  url : String := ""
  credentials : Option Credentials := none
  steps : Json := .null

/-- An outline in JSON; its steps are any value. -/
def Outline.record : Record Outline where
  name := "Site"
  blank := {}
  members :=
    [.text "name" name fun s o => { o with name := s },
      .text "url" url fun s o => { o with url := s },
      .optional "credentials" (Json.asOption Credentials.record.read)
        (fun c => c.map Credentials.record.write) credentials
        fun c o => { o with credentials := c },
      .optional "steps" (fun x => .ok x) some steps fun x o => { o with steps := x }]

/-- Read step definitions, the first of which has the given index. -/
def readSteps (index : Nat) : List Json → Except Fault (List StepDefinition)
  | [] => .ok []
  | x :: xs =>
    match StepDefinition.read x with
    | .error e => .error (.definition (.stepShapeAt index e))
    | .ok d => (readSteps (index + 1) xs).map (d :: ·)

/-- The definition that a JSON value holds. What stands outside the steps is checked before the
steps are looked at. -/
def definitionOfJson (x : Json) : Except Fault SiteDefinition :=
  match x with
  | .obj _ =>
    match Outline.record.read x with
    | .error e => .error (.definition (.siteShape e))
    | .ok o =>
      match headerFault? o.name o.url o.credentials with
      | some fault => .error fault
      | none =>
        match o.steps with
        | .arr xs => (readSteps 0 xs).map fun steps => ⟨o.name, o.url, o.credentials, steps⟩
        | _ => .error (.definition .stepsNotArray)
  | _ => .error (.definition .siteNotObject)

/-- The site that a JSON value holds. -/
def ofJson (x : Json) : Except Fault Site := do
  let d ← definitionOfJson x
  build d

/-- The site that a JSON text holds. -/
def ofText (text : String) : Except Fault Site :=
  match Json.parse text with
  | .error e => .error (.jsonText e)
  | .ok x => ofJson x

/-! ## Parts -/

variable {K : Kinds} (s : Site K)

/-- The credentials of a site. -/
def credentials : Option Credentials :=
  s.login.map Login.credentials

/-- The values that a run yields, in the order of the steps. -/
def params : List ParamDescriptor :=
  s.steps.flatMap Step.params

/-- The site in the form in which it is stored. -/
def definition : SiteDefinition :=
  ⟨s.name, s.url, s.credentials, s.steps.map Step.definition⟩

/-- Sites are equal when their definitions are. -/
instance : BEq (Site K) where
  beq a b := a.definition == b.definition

end Site

end SiteScript
