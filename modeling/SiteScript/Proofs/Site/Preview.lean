import SiteScript.Proofs.Site.Reload
import SiteScript.Proofs.Site.Traversal
import SiteScript.Proofs.Step.Extraction
import SiteScript.Proofs.Step.FieldList

/-!
# The values that a site yields

The descriptors of a site tell what a run of its script will yield (`Site.params`).  They are those
of its scrape and selector steps, and what the script of such a step passes to the page holds the
same values in the same order (`Site.previews_of_buildWith`).  Both come from the fields of the
checked step, which are as many as the definition has, and none of whose texts is empty
(`Action.Settled.filled`).
-/

namespace SiteScript

/-! ## Fields of settled actions -/

namespace Action

theorem needsKeys_eq_none_iff {index : Nat} {keys : List String} :
    needsKeys index keys = none ↔ ∀ key ∈ keys, key ≠ "" := by
  induction keys generalizing index with
  | nil => simp [needsKeys]
  | cons key keys ih =>
    rw [needsKeys, List.forall_mem_cons, needs]
    by_cases hkey : key = "" <;> simp [hkey, ih]

theorem needsFields_eq_none_iff {keys : List String} :
    needsFields keys = none ↔ keys ≠ [] ∧ ∀ key ∈ keys, key ≠ "" := by
  rw [needsFields]
  split_ifs with hkeys
  · simp [hkeys]
  · rw [needsKeys_eq_none_iff]
    exact (and_iff_right hkeys).symm

variable {a : Action}

theorem orElse_eq_none_iff {o p : Option Requirement} : (o <|> p) = none ↔ o = none ∧ p = none := by
  rw [Option.orElse_eq_orElse, Option.orElse_eq_or, Option.or_eq_none_iff]

/-- An action that meets its requirements has keys for its fields. -/
theorem needsFields_extracted (h : a.unmet? = none) (ha : a.type.isExtracting = true) :
    needsFields (a.extracted.map ScrapeField.key) = none := by
  cases a with
  | scrape a => exact h
  | selector a => exact (orElse_eq_none_iff.1 h).2
  | _ => cases ha

theorem Settled.normalize_extracted (h : a.Settled) :
    a.extracted.map ScrapeField.normalize = a.extracted := by
  have hnormal := congrArg extracted h.normal
  cases a with
  | scrape a => exact hnormal
  | selector a => exact hnormal
  | _ => rfl

/-- The fields of a settled action have a key, and with it a name, and say what is taken. -/
theorem Settled.filled (h : a.Settled) (ha : a.type.isExtracting = true) :
    ∀ f ∈ a.extracted, f.name ≠ "" ∧ f.key ≠ "" ∧ f.extract ≠ "" := by
  intro f hf
  have hkeys := (needsFields_eq_none_iff.1 (needsFields_extracted h.met ha)).2
  have hkey : f.key ≠ "" := hkeys f.key (List.mem_map_of_mem hf)
  have hnormal : f.normalize = f :=
    List.map_inj_left.1 (h.normalize_extracted.trans (List.map_id _).symm) f hf
  have hname : (if f.name = "" then f.key else f.name) = f.name := congrArg ScrapeField.name hnormal
  have hextract : (if f.extract = "" then "text" else f.extract) = f.extract :=
    congrArg ScrapeField.extract hnormal
  refine ⟨fun h => ?_, hkey, fun h => ?_⟩
  · rw [h, if_pos rfl] at hname
    exact hkey hname
  · rw [h, if_pos rfl] at hextract
    exact absurd hextract (by decide)

theorem params_eq (step : String) (a : Action) :
    a.params step = a.extracted.map (ScrapeField.descriptor step) := by
  cases a <;> rfl

end Action

/-! ## Fields of definitions -/

/-- A list of a record that is not empty is read from an array, item by item. -/
theorem Record.exists_items_of_read {α β : Type} {r : Record α} {name : String}
    {read : Json → Except ShapeFault β} {write : β → Json} {get : α → List β}
    {set : List β → α → α} (hrequired : ∀ m ∈ r.members, m.required = false)
    (hmember : (r.members.find? fun m => m.name = name) = some (.list name read write get set))
    (hset : ∀ b x, get (set b x) = b)
    (hothers : ∀ m ∈ r.members, m.name ≠ name → m.Keeps get) (hblank : get r.blank = [])
    {ms : Members} {x : α} (h : r.read (.obj ms) = .ok x) (hx : get x ≠ []) :
    ∃ items, (Members.ofList ms).get? name = some (.arr items) ∧ items.length = (get x).length := by
  rw [r.read_obj hrequired] at h
  have hnull : Json.orBlank [] (Json.asList read) .null = .ok (get r.blank) := by
    rw [hblank]
    rfl
  have hpart := part_of_readMembers hmember hset hothers hnull h
  cases hvalue : (Members.ofList ms).get? name with
  | none =>
    rw [hvalue] at hpart
    exact absurd (Except.ok.inj hpart).symm hx
  | some value =>
    rw [hvalue, Option.getD_some] at hpart
    cases value with
    | arr items =>
      have hitems : items.mapM read = .ok (get x) := hpart
      exact ⟨items, rfl, (mapM_eq_ok_iff.1 hitems).length_eq⟩
    | null => exact absurd (Except.ok.inj hpart).symm hx
    | _ => cases hpart

theorem Action.length_extracted_normalize (a : Action) :
    a.normalize.extracted.length = a.extracted.length := by
  cases a with
  | scrape a => exact List.length_map _
  | selector a => exact List.length_map _
  | _ => rfl

/-- An action with fields is read from attributes with an array of as many. -/
theorem Action.exists_fields_of_read {t : StepType} {ms : Members} {a : Action}
    (h : read t (.obj ms) = .ok a) (ha : a.extracted ≠ []) :
    ∃ items, (Members.ofList ms).get? "fields" = some (.arr items) ∧
      items.length = a.extracted.length := by
  cases t with
  | scrape =>
    obtain ⟨b, hb, rfl⟩ := Except.map_eq_ok_iff.1 h
    change b.fields ≠ [] at ha
    change ∃ items : List Json, _ ∧ items.length = b.fields.length
    refine Record.exists_items_of_read ?_ rfl (fun _ _ => rfl) ?_ rfl hb ha
    · simp [Scrape.record, Member.list]
    · simp only [Scrape.record, List.forall_mem_cons]
      exact ⟨fun hne => absurd rfl hne, List.forall_mem_nil _⟩
  | selector =>
    obtain ⟨b, hb, rfl⟩ := Except.map_eq_ok_iff.1 h
    change b.fields ≠ [] at ha
    change ∃ items : List Json, _ ∧ items.length = b.fields.length
    refine Record.exists_items_of_read ?_ rfl (fun _ _ => rfl) ?_ rfl hb ha
    · simp [Selector.record, Member.list, Member.text]
    · simp only [Selector.record, List.forall_mem_cons]
      exact ⟨fun _ => Member.keeps_optional _ _ _ _ _ fun _ _ => rfl,
        fun _ => Member.keeps_optional _ _ _ _ _ fun _ _ => rfl,
        fun hne => absurd rfl hne, List.forall_mem_nil _⟩
  | click | select | form | formSelector =>
    obtain ⟨b, -, rfl⟩ := Except.map_eq_ok_iff.1 h
    exact absurd rfl ha

/-! ## Descriptors -/

/-- What a script is told of a value: its name, its selector and what is taken. -/
def ParamDescriptor.field (p : ParamDescriptor) : ScrapeField :=
  ⟨p.name, p.key, p.extract⟩

namespace Step

theorem params_eq_map (t : Step) :
    t.params = t.action.extracted.map (ScrapeField.descriptor t.name) :=
  Action.params_eq t.name t.action

/-- Steps that take nothing from the page yield nothing. -/
theorem params_eq_nil {t : Step} (h : t.type.isExtracting = false) : t.params = [] := by
  rw [← t.type_action] at h
  rw [params_eq_map]
  cases haction : t.action with
  | scrape a | selector a =>
    rw [haction] at h
    cases h
  | _ => rfl

/-- The script of a step passes the values that the step yields to the page. -/
theorem parse_evaluated {t : Step} (h : t.type.isExtracting = true) (w : IndentWidth) :
    ∃ script literal, t.script w = .ok script ∧ evaluatedArrays script = some [literal] ∧
      literal.toList <:+: script.toList ∧
      Json.parse literal = .ok (.arr (t.params.map fun p => p.field.json)) := by
  obtain ⟨script, hscript, harrays, hinfix⟩ := evaluatedArrays_script h w
  refine ⟨script, _, hscript, harrays, hinfix, ?_⟩
  rw [ScrapeField.parse_literal, params_eq_map, List.map_map]
  rfl

/-- A step that is made of a definition yields as many values as the definition has fields. -/
theorem exists_fields_of_create {r : Registry} {d : StepDefinition} {t : Step}
    (hd : r.create d = .ok t) (h : t.type.isExtracting = true) :
    ∃ items, (Members.ofList d.attributes).get? "fields" = some (.arr items) ∧
      t.params.length = items.length := by
  obtain ⟨-, -, -, raw, hread, hstores⟩ := Registry.check_cases (Registry.create_eq_ok_iff.1 hd)
  have hnormal : t.action = raw.normalize := action_eq hstores
  have hlength : raw.extracted.length = t.action.extracted.length := by
    rw [hnormal, raw.length_extracted_normalize]
  have hne : raw.extracted ≠ [] := by
    have htype : t.action.type.isExtracting = true := by rwa [t.type_action]
    have hmet : t.action.unmet? = none := hnormal ▸ hstores.settled.met
    have hkeys := (Action.needsFields_eq_none_iff.1 (Action.needsFields_extracted hmet htype)).1
    rw [← List.length_pos_iff, hlength, List.length_pos_iff]
    exact fun hnil => hkeys (by rw [hnil, List.map_nil])
  obtain ⟨items, hitems, hcount⟩ := Action.exists_fields_of_read hread hne
  refine ⟨items, hitems, ?_⟩
  rw [params_eq_map, List.length_map, hcount, hlength]

end Step

namespace Site

/-- The descriptors of a site are what the scripts of its steps extract. -/
structure Previews (d : SiteDefinition) (s : Site) : Prop where
  /-- The descriptors are those of the scrape and selector steps, one step after the other. -/
  concatenated : s.params = (s.steps.filter fun t => t.type.isExtracting).flatMap Step.params
  others : ∀ t ∈ s.steps, t.type.isExtracting = false → t.params = []
  /-- The one array that a script passes to `evaluate` holds the descriptors. -/
  extracted : ∀ t ∈ s.steps, t.type.isExtracting = true → ∀ w, ∃ script literal,
    t.script w = .ok script ∧ evaluatedArrays script = some [literal] ∧
      literal.toList <:+: script.toList ∧
      Json.parse literal = .ok (.arr (t.params.map fun p => p.field.json))
  attributed : ∀ t ∈ s.steps, ∀ p ∈ t.params, p.step = t.name
  /-- There is one descriptor for each field of the definition of a step. -/
  counted : List.Forall₂ (fun raw t => t.type.isExtracting = true →
    ∃ items, (Members.ofList raw.attributes).get? "fields" = some (.arr items) ∧
      t.params.length = items.length) d.steps s.steps
  filled : ∀ p ∈ s.params, p.step ≠ "" ∧ p.name ≠ "" ∧ p.key ≠ "" ∧ p.extract ≠ ""

/-- The steps that yield nothing can be left out. -/
theorem flatMap_filter {α β : Type} {p : α → Bool} {g : α → List β}
    (h : ∀ x, p x = false → g x = []) (xs : List α) : (xs.filter p).flatMap g = xs.flatMap g := by
  induction xs with
  | nil => rfl
  | cons x xs ih =>
    cases hx : p x with
    | false =>
      rw [List.filter_cons_of_neg (by simp [hx]), ih, List.flatMap_cons, h x hx, List.nil_append]
    | true => rw [List.filter_cons_of_pos hx, List.flatMap_cons, List.flatMap_cons, ih]

/-- Whatever site is built, its descriptors are what its scripts extract. -/
theorem previews_of_buildWith {r : Registry} {d : SiteDefinition} {s : Site}
    (h : buildWith r d = .ok s) : Previews d s := by
  have hcreated : List.Forall₂ (fun raw t => r.create raw = .ok t) d.steps s.steps :=
    mapM_eq_ok_iff.1 (buildWith_eq_ok_iff.1 h).2.1
  refine ⟨?_, fun t _ => Step.params_eq_nil, fun t _ ht => Step.parse_evaluated ht, ?_, ?_, ?_⟩
  · rw [params, ← flatMap_filter fun _ => Step.params_eq_nil]
  · intro t _ p hp
    rw [Step.params_eq_map] at hp
    obtain ⟨f, -, rfl⟩ := List.mem_map.1 hp
    rfl
  · exact hcreated.imp fun _ _ hraw ht => Step.exists_fields_of_create hraw ht
  · intro p hp
    obtain ⟨t, hmem, hpt⟩ := List.mem_flatMap.1 hp
    cases ht : t.type.isExtracting with
    | false =>
      rw [Step.params_eq_nil ht] at hpt
      cases hpt
    | true =>
      rw [Step.params_eq_map] at hpt
      obtain ⟨f, hf, rfl⟩ := List.mem_map.1 hpt
      have hsettled := (Step.stores_action (s.settled t hmem)).settled
      exact ⟨t.checked.named, hsettled.filled (by rwa [t.type_action]) f hf⟩

/-- A definition with fields whose names or attributes are left out, and whose texts look like
calls. -/
def catalogDefinition : SiteDefinition where
  name := "catalog"
  url := "https://shop.example/catalog"
  steps :=
    [⟨"click", "menu", [("key", .str "#menu")]⟩,
      ⟨"scrape", "page", [("fields", .arr [.obj [("key", .str "h1")],
        .obj [("attribute", .str ""), ("key", .str "a"), ("name", .str "\u2028.evaluate([")]])]⟩,
      ⟨"selector", "rows", [("container", .str ".evaluate(["),
        ("fields", .arr [.obj [("attribute", .str "href"), ("key", .str "a"), ("name", .null)]])]⟩]

/-- The site that is built of it. -/
def catalog : Site where
  name := "catalog"
  url := "https://shop.example/catalog"
  login := none
  steps :=
    [.ofAction "menu" (.click ⟨"#menu"⟩) (by decide),
      .ofAction "page" (.scrape ⟨[⟨"h1", "h1", "text"⟩, ⟨"\u2028.evaluate([", "a", "text"⟩]⟩)
        (by decide),
      .ofAction "rows" (.selector ⟨some true, ".evaluate([", [⟨"a", "a", "href"⟩]⟩) (by decide)]
  named := by decide
  located := by decide
  settled := List.forall_mem_cons.2 ⟨Step.settled_ofAction ⟨rfl, rfl⟩, List.forall_mem_cons.2
    ⟨Step.settled_ofAction ⟨rfl, rfl⟩, List.forall_mem_singleton.2
      (Step.settled_ofAction ⟨rfl, rfl⟩)⟩⟩

theorem previews_catalog :
    build catalogDefinition = .ok catalog ∧ Previews catalogDefinition catalog ∧
      catalog.params = [⟨"page", "h1", "h1", "text"⟩, ⟨"page", "\u2028.evaluate([", "a", "text"⟩,
        ⟨"rows", "a", "a", "href"⟩] := by
  have hbuild : build catalogDefinition = .ok catalog := by rfl
  exact ⟨hbuild, previews_of_buildWith hbuild, by rfl⟩

end Site

end SiteScript
