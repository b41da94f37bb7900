import SiteScript.Proofs.Step.Shape
import SiteScript.Proofs.Step.Stored

/-!
# Rebuilt steps

A step of a definition that passes the check is stored under exactly the attributes that its type
declares (`Action.keys_perm`).  Checked again it is the same step.  Building it reads the stored
attributes a second time; they are read as the normal form of what the definition says, which is then
what the step does (`Registry.rebuilds`).
-/

namespace SiteScript

/-! ## The keys of stored attributes -/

/-- A record of which every member is written is stored under the names of its members. -/
theorem Record.keys_sorted_perm {α : Type} {r : Record α} (h : (r.members.map Member.name).Nodup)
    {x : α} (hwrites : ∀ m ∈ r.members, m.write x ≠ none) :
    ((r.sorted x).map Prod.fst).Perm (r.members.map Member.name) := by
  have hsorted : (r.sorted x).Sorted := Members.sorted_ofList _
  refine (List.perm_ext_iff_of_nodup hsorted.nodup h).2 fun key => ?_
  constructor
  · intro hkey
    obtain ⟨n, hn, rfl⟩ := List.mem_map.1 hkey
    obtain ⟨m, hm, v, -, rfl⟩ := mem_sorted hn
    exact List.mem_map_of_mem hm
  · intro hkey
    obtain ⟨m, hm, rfl⟩ := List.mem_map.1 hkey
    obtain ⟨v, hv⟩ := Option.ne_none_iff_exists'.1 (hwrites m hm)
    exact List.mem_map_of_mem (Members.mem_of_get? (get?_sorted h hm hv))

namespace Action

/-- An action is stored under the attributes that its type declares. -/
theorem keys_perm (a : Action) : (a.attributes.map Prod.fst).Perm a.type.declared := by
  have hstored {α : Type} {r : Record α} {x : α} (hdeclares : r.Declares a.type.shapes)
      (hwrite : a.write = r.write x) (hwrites : ∀ m ∈ r.members, m.write x ≠ none) :
      (a.attributes.map Prod.fst).Perm a.type.declared := by
    have hnames : r.members.map Member.name = a.type.declared := hdeclares.names
    rw [attributes_of_write hwrite, ← hnames]
    exact Record.keys_sorted_perm (hnames ▸ a.type.nodup_declared) hwrites
  cases a with
  | click a => exact hstored Click.declares rfl (by simp [Click.record, Member.text])
  | select a => exact hstored Select.declares rfl (by simp [Select.record, Member.text])
  | form a => exact hstored Form.declares rfl (by simp [Form.record, Member.list])
  | formSelector a =>
    exact hstored FormSelector.declares rfl
      (by simp [FormSelector.record, Member.text, Member.list])
  | scrape a => exact hstored Scrape.declares rfl (by simp [Scrape.record, Member.list])
  | selector a =>
    exact hstored Selector.declares rfl (by simp [Selector.record, Member.text, Member.list])

end Action

/-! ## Checking and building again -/

/-- How a registry answers `v` to a definition from which `raw` is read, and makes `built` of it. -/
structure Rebuilds (r : Registry) (d : StepDefinition) (raw : Action) (v : CheckedStep)
    (built : Step) : Prop where
  type : d.type = .ok v.type
  read : Action.read v.type (.obj d.attributes) = .ok raw
  /-- The step is stored under the attributes that its type declares. -/
  keys : (v.definition.attributes.map Prod.fst).Perm v.type.declared
  own : ∀ n ∈ v.definition.attributes, n.1 ≠ "type" ∧ n.1 ≠ "name"
  checks : r.check v.definition = .ok v
  builds : r.build v = .ok built
  /-- The stored attributes are read as they stand, with nothing left to fill in. -/
  stored : Action.read v.type (.obj v.definition.attributes) = .ok built.action
  normal : built.action = raw.normalize
  definition : built.definition = v.definition
  params : built.params = raw.normalize.params d.name
  helper : built.helper? = raw.normalize.helper?
  script (w : IndentWidth) : built.script w = (raw.normalize.render d.name).map (Layout.layout w)
  made : r.create d = .ok built
  /-- The definition of the built step makes that step again. -/
  creates : r.create built.definition = .ok built

namespace Registry

variable {r : Registry} {d : StepDefinition} {v : CheckedStep}

theorem exists_rebuilds (h : r.check d = .ok v) : ∃ raw built, Rebuilds r d raw v built := by
  obtain ⟨htype, hknown, hname, raw, hread, hstores⟩ := check_cases h
  obtain ⟨built, hbuild, rfl, hnormal⟩ := build_stores hknown hstores
  have hchecks : r.check built.definition = .ok built.checked := check_definition hknown hstores
  have htidy := CheckedStep.tidy_definition hstores
  have hsname : built.name = d.name := hname
  exact ⟨raw, built, {
    type := htype
    read := hread
    keys := by
      rw [← hstores.type, CheckedStep.definition, hstores.attributes]
      exact raw.normalize.keys_perm
    own := fun n hn => by simpa [StepDefinition.isAttribute] using htidy.keys n hn
    checks := hchecks
    builds := hbuild
    stored := built.read_attributes
    normal := hnormal
    definition := rfl
    params := by rw [built.params_eq, hnormal, hsname]
    helper := by rw [built.helper?_eq, hnormal]
    script := fun w => by rw [built.script_eq w, hnormal, hsname]
    made := create_eq_ok_iff.2 h
    creates := create_eq_ok_iff.2 hchecks }⟩

/-- Making a step fails as the check of its definition fails, and in no other way.  What passes the
check is its own answer, and the step that is built of it does what the definition says. -/
theorem rebuilds (r : Registry) (d : StepDefinition) :
    (∀ fault, r.create d = .error fault ↔ r.check d = .error fault) ∧
      ∀ v, r.check d = .ok v → ∃ raw built, Rebuilds r d raw v built :=
  ⟨fun _ => create_eq_error_iff, fun _ => exists_rebuilds⟩

/-- A definition with a field in an array, and with an attribute that is not declared. -/
def listingDefinition : StepDefinition :=
  ⟨"selector", "Rows",
    [("container", .null), ("fields", .arr [.arr [.null, .str "td"]]), ("note", .str "x")]⟩

/-- The answer to it. -/
def listing : CheckedStep :=
  ⟨.selector, "Rows", (Action.selector ⟨some false, "", [⟨"td", "td", "text"⟩]⟩).attributes,
    by decide⟩

theorem rebuilds_listing :
    (empty.register .selector).check listingDefinition = .ok listing ∧
      ∃ raw built, Rebuilds (empty.register .selector) listingDefinition raw listing built := by
  have hcheck : (empty.register .selector).check listingDefinition = .ok listing := by rfl
  exact ⟨hcheck, (rebuilds _ _).2 _ hcheck⟩

end Registry

end SiteScript
