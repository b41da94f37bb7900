import Mathlib.Data.List.Forall2
import SiteScript.Proofs.Site.Reload
import SiteScript.Site.Journal

/-!
# Equal sites

Sites are compared by their definitions.  The definition of a step carries all that the step does: its
tag names the type, and the kind of the type reads its content from the attributes (`Step.carried`).  A
script is put together of what can be seen of the steps and of the header (`Site.sameOutput_of_alike`).
Sites with equal definitions therefore yield the same values, the same scripts and the same log, however
differently the sources were written that they were built from (`Site.sameOutput_of_beq`).  This holds
for any kinds, as long as both sites have the same ones: a definition names the types of its steps, but
what a type does is up to its kind.
-/

namespace SiteScript

/-! ## Steps -/

/-- The tag, the name and the attributes determine what is stored. -/
theorem CheckedStep.definition_injective : Function.Injective definition := by
  intro v u h
  obtain ⟨htag, hname, hattributes⟩ := StepDefinition.mk.inj h
  obtain ⟨t, name, ms, named⟩ := v
  obtain rfl : t = u.type := StepType.tag_injective htag
  obtain rfl : name = u.name := hname
  obtain rfl : ms = u.attributes := hattributes
  rfl

variable {K L : Kinds}

/-- What a step does can be read from its stored form. -/
structure Step.Carried (s : Step K) : Prop where
  type : s.definition.type = .ok s.type
  name : s.definition.name = s.name
  content : (K s.type).read (.obj s.definition.attributes) = .ok s.content

theorem Step.carried (s : Step K) : s.Carried where
  type := StepDefinition.type_eq_ok_iff.2 rfl
  name := rfl
  content := s.reads

/-- Steps that neither an editor nor a run can tell apart. -/
structure Step.Alike (s : Step K) (t : Step L) : Prop where
  type : s.type = t.type
  name : s.name = t.name
  params : s.params = t.params
  helper : s.helper? = t.helper?
  script : ∀ w, s.script w = t.script w

/-- Steps of one type and name, which cannot be told apart if their type has one kind. -/
structure Step.Akin (s : Step K) (t : Step L) : Prop where
  type : s.type = t.type
  name : s.name = t.name
  alike : K s.type = L s.type → s.Alike t

/-- One kind does the same with what it reads from the same attributes. -/
theorem Kind.outputs_eq {k l : Kind} (h : k = l) {x : Json} {c : k.Content} {d : l.Content}
    (hc : k.read x = .ok c) (hd : l.read x = .ok d) (name : String) :
    k.params name c = l.params name d ∧ k.helper? c = l.helper? d ∧
      k.render name c = l.render name d := by
  subst h
  obtain rfl := Except.ok.inj (hc.symm.trans hd)
  exact ⟨rfl, rfl, rfl⟩

/-- Steps that are stored alike differ in no more than the kind of their type. -/
theorem Step.akin_of_carried {s : Step K} {t : Step L} (hs : s.Carried) (ht : t.Carried)
    (h : s.definition = t.definition) : s.Akin t := by
  have hchecked : s.checked = t.checked := CheckedStep.definition_injective h
  have htype : s.type = t.type := congrArg CheckedStep.type hchecked
  have hname : s.name = t.name := congrArg CheckedStep.name hchecked
  refine ⟨htype, hname, fun hkind => ?_⟩
  -- The contents are of different types until the kinds are known to be one.
  obtain ⟨hparams, hhelper, hrender⟩ := Kind.outputs_eq (hkind.trans (congrArg L htype)) hs.content
    (h ▸ ht.content) t.name
  exact {
    type := htype
    name := hname
    params := by
      rw [params, hname]
      exact hparams
    helper := hhelper
    script := fun w => by
      rw [script, hname]
      exact congrArg (Except.map (Layout.layout w)) hrender }

/-- What the steps of two lists agree on, the lists agree on. -/
theorem Step.map_eq_of_alike {β : Type} {f : Step K → β} {g : Step L → β} {ss : List (Step K)}
    {ts : List (Step L)} (h : List.Forall₂ Step.Alike ss ts)
    (hfg : ∀ s t, Step.Alike s t → f s = g t) : ss.map f = ts.map g := by
  rw [← List.forall₂_eq_eq_eq, List.forall₂_map_left_iff, List.forall₂_map_right_iff]
  exact h.imp hfg

namespace Site

/-! ## Sites -/

/-- Sites that yield the same values, scripts and log, and do so step by step. -/
structure SameOutput (a : Site K) (b : Site L) : Prop where
  params : a.params = b.params
  steps : List.Forall₂ Step.Alike a.steps b.steps
  compile : ∀ w, a.compile w = b.compile w
  log : ∀ w, a.compileLog w = b.compileLog w

section

variable {a : Site K} {b : Site L}

theorem params_eq_of_alike (h : List.Forall₂ Step.Alike a.steps b.steps) :
    a.params = b.params := by
  rw [params, params, List.flatMap_def, List.flatMap_def,
    Step.map_eq_of_alike h fun _ _ hst => hst.params]

theorem helpers_eq_of_alike (h : List.Forall₂ Step.Alike a.steps b.steps) :
    a.helpers = b.helpers := by
  have hmap : a.steps.map Step.helper? = b.steps.map Step.helper? :=
    Step.map_eq_of_alike h fun _ _ hst => hst.helper
  have hfilter {K : Kinds} (ss : List (Step K)) :
      ss.filterMap Step.helper? = (ss.map Step.helper?).filterMap id := by
    rw [List.filterMap_map, Function.id_comp]
  rw [helpers, helpers, hfilter, hfilter, hmap]

theorem assemble_eq_of_alike (hurl : a.url = b.url) (hlogin : a.login = b.login)
    (h : List.Forall₂ Step.Alike a.steps b.steps) (w : IndentWidth) :
    a.assemble w = b.assemble w := by
  have hmap : a.steps.map (Step.script w) = b.steps.map (Step.script w) :=
    Step.map_eq_of_alike h fun _ _ hst => hst.script w
  have hid {K : Kinds} (ss : List (Step K)) :
      ss.mapM (Step.script w) = (ss.map (Step.script w)).mapM id := by
    rw [List.mapM_map, Function.id_comp]
  rw [assemble, assemble, hid, hid, hmap, helpers_eq_of_alike h, hlogin, hurl]

theorem compileLog_eq_of_alike (hname : a.name = b.name) (hurl : a.url = b.url)
    (hlogin : a.login = b.login) (h : List.Forall₂ Step.Alike a.steps b.steps)
    (w : IndentWidth) : a.compileLog w = b.compileLog w := by
  have hemitted : a.steps.map Step.emitted = b.steps.map Step.emitted :=
    Step.map_eq_of_alike h fun s t hst => by rw [Step.emitted, Step.emitted, hst.type, hst.name]
  have hcompiled : a.compiled = b.compiled := by
    funext script
    rw [compiled, compiled, stepCount, stepCount, hname, h.length_eq]
  rw [compileLog, compileLog, hemitted, assemble_eq_of_alike hurl hlogin h, hcompiled]

/-- What a site yields depends on its header and on what can be seen of its steps. -/
theorem sameOutput_of_alike (hname : a.name = b.name) (hurl : a.url = b.url)
    (hlogin : a.login = b.login) (h : List.Forall₂ Step.Alike a.steps b.steps) :
    SameOutput a b where
  params := params_eq_of_alike h
  steps := h
  compile := fun w => by rw [compile, compile, assemble_eq_of_alike hurl hlogin h]
  log := compileLog_eq_of_alike hname hurl hlogin h

/-- Steps that are stored alike stand in the same places. -/
theorem akin_steps_of_definition (h : a.definition = b.definition) :
    List.Forall₂ Step.Akin a.steps b.steps := by
  have hsteps : a.steps.map Step.definition = b.steps.map Step.definition :=
    congrArg SiteDefinition.steps h
  rw [← List.forall₂_eq_eq_eq, List.forall₂_map_left_iff, List.forall₂_map_right_iff] at hsteps
  exact hsteps.imp fun s t => Step.akin_of_carried s.carried t.carried

theorem sameOutput_of_definition (hkinds : ∀ s ∈ a.steps, K s.type = L s.type)
    (h : a.definition = b.definition) : SameOutput a b := by
  have hcredentials : a.credentials = b.credentials := congrArg SiteDefinition.credentials h
  have hlogin : a.login = b.login := by
    rw [← a.bind_login?_credentials, ← b.bind_login?_credentials, hcredentials]
  have hsteps : List.Forall₂ Step.Alike a.steps b.steps :=
    ((List.forall₂_and_left _ _).2 ⟨hkinds, akin_steps_of_definition h⟩).imp
      fun _ _ ⟨hkind, hakin⟩ => hakin.alike hkind
  exact sameOutput_of_alike (congrArg SiteDefinition.name h) (congrArg SiteDefinition.url h) hlogin
    hsteps

end

/-- A site with every attribute written out. -/
def plainMarket : SiteDefinition where
  name := "market"
  url := "https://market.example/"
  steps :=
    [⟨"selector", "items",
      [("container", .str ".item"),
        ("fields", .arr [.obj [("attribute", .str "text"), ("key", .str "h2"), ("name", .str "h2")]]),
        ("scoped", .bool true)]⟩]

/-- The same site with blank credentials, a member that nobody knows, a field without its keys, and
without a word on the scope. -/
def looseMarket : Json :=
  .obj [("url", .str "https://market.example/"), ("name", .str "market"), ("credentials", .arr []),
    ("steps", .arr [.obj [("fields", .arr [.arr [.null, .str "h2", .null]]),
      ("container", .str ".item"), ("colour", .str "red"), ("name", .str "items"),
      ("type", .str "selector")]])]

/-- The kinds of the six actions, but that a click is no more than a remark, whatever its attributes
are. -/
def remarkKinds : Kinds
  | .click => {
    Content := Unit
    blank := ()
    read := fun _ => .ok ()
    write := fun _ => .obj []
    normalize := id
    check := fun _ => .ok ()
    params := fun _ _ => []
    render := fun name _ => .ok ("// " ++ name)
    helper? := fun _ => none }
  | t => Kinds.builtin t

/-- The two types of the market below, with these kinds. -/
def remarkRegistry : Registry remarkKinds where
  types := [.click, .selector]

/-- The market with a remark in front, which has some attributes. -/
def remarkedMarket (attributes : Members) : SiteDefinition :=
  { plainMarket with steps := ⟨"click", "best before noon", attributes⟩ :: plainMarket.steps }

end Site

end SiteScript
