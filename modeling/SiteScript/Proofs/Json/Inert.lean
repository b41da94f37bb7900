import SiteScript.Proofs.Json.Parts

/-!
# Members that do not count

Two objects agree if they have the same members in the same order, up to some that do not count, and up
to values that are alike (`Members.Agree`).  A record is read alike from objects that agree if a member
that does not count leaves its part at the default and values that are alike are read as the same part
(`Record.Parts.read_agree`): the fault of the first member that is refused is the same, and else the
parts are.
-/

namespace SiteScript

theorem Except.map_eq_map {ε α β γ : Type} {d e : Except ε α} {f : α → β} {g : α → γ}
    (h : d.map f = e.map f) (hfg : ∀ x y, f x = f y → g x = g y) : d.map g = e.map g := by
  cases d with
  | error =>
    cases e with
    | error => exact congrArg Except.error (Except.error.inj h)
    | ok => cases h
  | ok x =>
    cases e with
    | error => cases h
    | ok y => exact congrArg Except.ok (hfg x y (Except.ok.inj h))

theorem Except.map_map_congr {ε α β γ δ : Type} {d e : Except ε α} {f : α → β} {g : α → γ} {k : γ → δ}
    (h : d.map f = e.map f) (hfg : ∀ x y, f x = f y → k (g x) = k (g y)) :
    (d.map g).map k = (e.map g).map k := by
  have hsame := map_eq_map (g := fun x => k (g x)) h hfg
  cases d <;> cases e <;> exact hsame

/-! ## Members that agree -/

/-- A key that is not declared, or null under one for which null is what an absent value is. -/
def Spare (declared strict : List String) (key : String) (value : Json) : Prop :=
  key ∉ declared ∨ (value = .null ∧ key ∉ strict)

/-- Members in the same order, up to some that are spare and to values that are alike. -/
inductive Members.Agree (spare : String → Json → Prop) (alike : String → Json → Json → Prop) :
    Members → Members → Prop
  | nil : Agree spare alike [] []
  | keep {key : String} {v w : Json} {ms ns : Members} (value : alike key v w)
    (rest : Agree spare alike ms ns) : Agree spare alike ((key, v) :: ms) ((key, w) :: ns)
  | drop {key : String} {v : Json} {ms ns : Members} (value : spare key v)
    (rest : Agree spare alike ms ns) : Agree spare alike ((key, v) :: ms) ns
  | add {key : String} {v : Json} {ms ns : Members} (value : spare key v)
    (rest : Agree spare alike ms ns) : Agree spare alike ms ((key, v) :: ns)

/-- The same value, or objects of distinct keys whose members agree. -/
inductive Json.ObjectsAgree (spare : String → Json → Prop) (alike : String → Json → Json → Prop) :
    Json → Json → Prop
  | refl (x : Json) : ObjectsAgree spare alike x x
  | obj {ms ns : Members} (left : (ms.map Prod.fst).Nodup) (right : (ns.map Prod.fst).Nodup)
    (members : Members.Agree spare alike ms ns) : ObjectsAgree spare alike (.obj ms) (.obj ns)

/-- The same value, or arrays whose items are alike. -/
inductive Json.ArraysAgree (alike : Json → Json → Prop) : Json → Json → Prop
  | refl (x : Json) : ArraysAgree alike x x
  | arr {xs ys : List Json} (items : List.Forall₂ alike xs ys) :
    ArraysAgree alike (.arr xs) (.arr ys)

namespace Members.Agree

variable {spare spare' : String → Json → Prop} {alike alike' : String → Json → Json → Prop}
  {ms ns : Members}

/-- Of members that agree, those under some keys agree. -/
theorem filter_both (h : Agree spare alike ms ns) {p : String → Bool}
    (hspare : ∀ key v, p key = true → spare key v → spare' key v)
    (halike : ∀ key v w, p key = true → alike key v w → alike' key v w) :
    Agree spare' alike' (ms.filter fun m => p m.1) (ns.filter fun m => p m.1) := by
  induction h with
  | nil => exact .nil
  | keep value rest ih =>
    rw [List.filter_cons, List.filter_cons]
    split_ifs with hkey
    · exact .keep (halike _ _ _ hkey value) ih
    · exact ih
  | drop value rest ih =>
    rw [List.filter_cons]
    split_ifs with hkey
    · exact .drop (hspare _ _ hkey value) ih
    · exact ih
  | add value rest ih =>
    rw [List.filter_cons]
    split_ifs with hkey
    · exact .add (hspare _ _ hkey value) ih
    · exact ih

/-- Under a key where only null is spare and only the same values are alike, members that agree have the
same value, or null and none. -/
theorem getD_get? (h : Agree spare alike ms ns) (hms : (ms.map Prod.fst).Nodup)
    (hns : (ns.map Prod.fst).Nodup) {key : String} (hspare : ∀ v, spare key v → v = .null)
    (halike : ∀ v w, alike key v w → v = w) :
    (ms.get? key).getD .null = (ns.get? key).getD .null := by
  have habsent {ms : Members} (hkey : key ∉ ms.map Prod.fst) : ms.get? key = none := by
    rcases hget : ms.get? key with _ | v
    · rfl
    · exact absurd (List.mem_map_of_mem (mem_of_get? hget)) hkey
  induction h with
  | nil => rfl
  | @keep k v w ms ns value rest ih =>
    rw [List.map_cons, List.nodup_cons] at hms hns
    rw [get?_cons, get?_cons]
    split_ifs with hk
    · subst hk
      rw [halike v w value]
    · exact ih hms.2 hns.2
  | @drop k v ms ns value rest ih =>
    rw [List.map_cons, List.nodup_cons] at hms
    rw [← ih hms.2 hns, get?_cons]
    split_ifs with hk
    · subst hk
      rw [hspare v value, habsent hms.1]
      rfl
    · rfl
  | @add k v ms ns value rest ih =>
    rw [List.map_cons, List.nodup_cons] at hns
    rw [ih hms hns.2, get?_cons]
    split_ifs with hk
    · subst hk
      rw [hspare v value, habsent hns.1]
      rfl
    · rfl

end Members.Agree

/-! ## Reading objects that agree -/

namespace Record

variable {α γ : Type} {r : Record α} {part : String → α → γ}

/-- The part under a key that a value is read as, if nothing else is read. -/
def partRead (r : Record α) (part : String → α → γ) (key : String) (v : Json) : Except ShapeFault γ :=
  (r.readMember r.blank key v).map (part key)

variable (h : r.Parts part) {spare : String → Json → Prop} {alike : String → Json → Json → Prop}
  (hspare : ∀ key v, spare key v → r.partRead part key v = .ok (part key r.blank))
  (halike : ∀ key v w, alike key v w → r.partRead part key v = r.partRead part key w)

theorem readMember_of_partRead_error {key : String} {v : Json} {e : ShapeFault}
    (hv : r.partRead part key v = .error e) (x : α) : r.readMember x key v = .error e :=
  readMember_error (Except.map_eq_error_iff.1 hv) x

include h in
/-- A value sets the part under its key to what it is read as, and leaves the others alone. -/
theorem Parts.readMember_of_partRead {key : String} {v : Json} {c : γ}
    (hv : r.partRead part key v = .ok c) (x : α) :
    ∃ y, r.readMember x key v = .ok y ∧
      ∀ n ∈ r.members, part n.name y = if n.name = key then c else part n.name x := by
  obtain ⟨z, hz, rfl⟩ := Except.map_eq_ok_iff.1 hv
  cases hy : r.readMember x key v with
  | error e =>
    rw [readMember_error hy] at hz
    cases hz
  | ok y =>
    refine ⟨y, rfl, fun n hn => ?_⟩
    split_ifs with hkey
    · subst hkey
      exact h.part_readMember hn hy hz
    · exact h.part_readMember_of_ne hn hkey hy

include h in
/-- A value that is read as the blank part leaves a record with that part as it is. -/
theorem Parts.readMember_of_partRead_blank {key : String} {v : Json}
    (hv : r.partRead part key v = .ok (part key r.blank)) {x : α}
    (hx : ∀ n ∈ r.members, n.name = key → part n.name x = part n.name r.blank) :
    ∃ y, r.readMember x key v = .ok y ∧ ∀ n ∈ r.members, part n.name y = part n.name x := by
  obtain ⟨y, hy, hparts⟩ := h.readMember_of_partRead hv x
  refine ⟨y, hy, fun n hn => ?_⟩
  rw [hparts n hn]
  split_ifs with hkey
  · rw [hx n hn hkey, hkey]
  · rfl

include h hspare halike in
/-- Members that agree are read alike, the left ones into `x` and the right ones into `y`, where these
have the same parts, and blank ones under the keys that are still to come. -/
theorem Parts.readMembers_agree {ms ns : Members} (hagree : Members.Agree spare alike ms ns)
    (hms : (ms.map Prod.fst).Nodup) (hns : (ns.map Prod.fst).Nodup) {x y : α}
    (hxy : ∀ n ∈ r.members, part n.name x = part n.name y)
    (hblank : ∀ n ∈ r.members, n.name ∈ ms.map Prod.fst ∨ n.name ∈ ns.map Prod.fst →
      part n.name x = part n.name r.blank) :
    (r.readMembers x ms).map (r.parts part) = (r.readMembers y ns).map (r.parts part) := by
  induction hagree generalizing x y with
  | nil => exact congrArg Except.ok (parts_eq_iff.2 hxy)
  | @keep key v w ms ns value rest ih =>
    rw [List.map_cons, List.nodup_cons] at hms hns
    rw [readMembers, readMembers, List.foldlM_cons, List.foldlM_cons]
    cases hv : r.partRead part key v with
    | error e =>
      have hw := halike key v w value ▸ hv
      rw [readMember_of_partRead_error hv, readMember_of_partRead_error hw]
      rfl
    | ok c =>
      have hw := halike key v w value ▸ hv
      obtain ⟨x', hx, hx'⟩ := h.readMember_of_partRead hv x
      obtain ⟨y', hy, hy'⟩ := h.readMember_of_partRead hw y
      rw [hx, hy]
      refine ih hms.2 hns.2 (fun n hn => ?_) fun n hn hlater => ?_
      · rw [hx' n hn, hy' n hn, hxy n hn]
      · have hkey : n.name ≠ key := by
          rintro rfl
          exact hlater.elim hms.1 hns.1
        rw [hx' n hn, if_neg hkey]
        exact hblank n hn (hlater.imp (List.mem_cons_of_mem _) (List.mem_cons_of_mem _))
  | @drop key v ms ns value rest ih =>
    rw [List.map_cons, List.nodup_cons] at hms
    obtain ⟨x', hx, hsame⟩ := h.readMember_of_partRead_blank (hspare key v value) (x := x)
      fun n hn hkey => hblank n hn (.inl (hkey ▸ List.mem_cons_self))
    rw [readMembers, List.foldlM_cons, hx]
    refine ih hms.2 hns (fun n hn => (hsame n hn).trans (hxy n hn)) fun n hn hlater => ?_
    exact (hsame n hn).trans (hblank n hn (hlater.imp_left (List.mem_cons_of_mem _)))
  | @add key v ms ns value rest ih =>
    rw [List.map_cons, List.nodup_cons] at hns
    obtain ⟨y', hy, hsame⟩ := h.readMember_of_partRead_blank (hspare key v value) (x := y)
      fun n hn hkey => (hxy n hn).symm.trans (hblank n hn (.inr (hkey ▸ List.mem_cons_self)))
    have hright := ih hms hns.2 (x := x) (y := y')
      (fun n hn => (hxy n hn).trans (hsame n hn).symm) fun n hn hlater =>
        hblank n hn (hlater.imp_right (List.mem_cons_of_mem _))
    rw [hright, readMembers, readMembers, List.foldlM_cons, hy]
    rfl

include h hspare halike in
/-- A record is read alike from objects that agree: with the same fault, or as the same parts. -/
theorem Parts.read_agree {x y : Json} (hagree : Json.ObjectsAgree spare alike x y) :
    (r.read x).map (r.parts part) = (r.read y).map (r.parts part) := by
  cases hagree with
  | refl => rfl
  | obj left right members =>
    rw [r.read_obj h.required, r.read_obj h.required]
    exact h.readMembers_agree hspare halike members left right (fun n _ => rfl) fun n _ _ => rfl

/-! ## Values that do not count -/

/-- Null is read as an absent value is, apart from some members. -/
def NullIsAbsent (r : Record α) (part : String → α → γ) (strict : List String) : Prop :=
  ∀ m ∈ r.members, m.name ∉ strict → r.partRead part m.name .null = .ok (part m.name r.blank)

/-- A spare value is read as an absent one. -/
theorem NullIsAbsent.partRead_of_spare {declared strict : List String}
    (h : r.NullIsAbsent part strict) (hdeclared : ∀ m ∈ r.members, m.name ∈ declared) {key : String}
    {v : Json} (hv : Spare declared strict key v) :
    r.partRead part key v = .ok (part key r.blank) := by
  rcases hm : r.members.find? (fun m => m.name = key) with _ | m
  · rw [partRead, readMember, hm]
    rfl
  · obtain ⟨hmem, rfl⟩ := mem_of_find? hm
    obtain hkey | ⟨rfl, hkey⟩ := hv
    · exact absurd (hdeclared m hmem) hkey
    · exact h m hmem hkey

/-- A record is read alike, up to a view of its parts, from objects that differ only in spare members
and in values that are read as the same part. -/
theorem NullIsAbsent.read_agree {δ : Type} {declared strict : List String} (view : α → δ)
    (hnull : r.NullIsAbsent part strict) (h : r.Parts part)
    (hdeclared : ∀ m ∈ r.members, m.name ∈ declared)
    (halike : ∀ key v w, alike key v w → r.partRead part key v = r.partRead part key w)
    (hview : ∀ a b, r.parts part a = r.parts part b → view a = view b) {x y : Json}
    (hxy : Json.ObjectsAgree (Spare declared strict) alike x y) :
    (r.read x).map view = (r.read y).map view :=
  Except.map_eq_map
    (h.read_agree (fun _ _ => hnull.partRead_of_spare hdeclared) halike hxy) hview

/-! ## Whole records -/

/-- Where null is read as an absent value is and the members are the whole record, it is the same
record that is read from objects that differ only in spare members. -/
theorem NullIsAbsent.read_eq {declared : List String} (hnull : r.NullIsAbsent r.written [])
    (h : r.Parts r.written) (hrecoverable : ∀ x, r.Recoverable x)
    (hdeclared : r.members.map Member.name = declared) {x y : Json}
    (hxy : Json.ObjectsAgree (Spare declared []) (fun _ v w => v = w) x y) : r.read x = r.read y := by
  have hread := hnull.read_agree id h (fun m hm => hdeclared ▸ List.mem_map_of_mem hm)
    (by rintro key v w rfl; rfl) (fun a b => eq_of_parts_written hrecoverable) hxy
  rwa [Except.map_id] at hread

end Record

/-! ## Lists -/

/-- What is made of the items of a list can be made of each item as it is read. -/
theorem map_mapM {ε α β γ : Type} (f : α → Except ε β) (view : β → γ) (xs : List α) :
    (xs.mapM f).map (List.map view) = xs.mapM fun x => (f x).map view := by
  induction xs with
  | nil => rfl
  | cons x xs ih =>
    rw [List.mapM_cons, List.mapM_cons, ← ih]
    cases f x with
    | error => rfl
    | ok => cases xs.mapM f <;> rfl

theorem mapM_congr_of_forall₂ {ε α β : Type} {f : α → Except ε β} {xs ys : List α}
    (h : List.Forall₂ (fun x y => f x = f y) xs ys) : xs.mapM f = ys.mapM f := by
  induction h with
  | nil => rfl
  | cons hxy _ ih => rw [List.mapM_cons, List.mapM_cons, hxy, ih]

/-- Lists whose items are alike are read alike if the items are. -/
theorem Json.ArraysAgree.map_asList {β γ : Type} {item : Json → Except ShapeFault β} {view : β → γ}
    {alike : Json → Json → Prop} (h : ∀ x y, alike x y → (item x).map view = (item y).map view)
    {x y : Json} (hxy : ArraysAgree alike x y) :
    (orBlank [] (asList item) x).map (List.map view) =
      (orBlank [] (asList item) y).map (List.map view) := by
  cases hxy with
  | refl => rfl
  | arr items =>
    rw [orBlank, orBlank, asList, asList, map_mapM, map_mapM]
    · exact mapM_congr_of_forall₂ (items.imp h)
    · rintro ⟨⟩
    · rintro ⟨⟩

theorem Record.partRead_list {α β γ δ : Type} {r : Record α} {part : String → α → γ} {name : String}
    {item : Json → Except ShapeFault β} {write : β → Json} {get : α → List β}
    {set : List β → α → α}
    (hmember : (r.members.find? fun m => m.name = name) = some (.list name item write get set))
    (view : β → δ) {alike : Json → Json → Prop}
    (h : ∀ x y, alike x y → (item x).map view = (item y).map view)
    (hpart : ∀ as bs : List β, as.map view = bs.map view →
      part name (set as r.blank) = part name (set bs r.blank))
    {v w : Json} (hvw : Json.ArraysAgree alike v w) :
    r.partRead part name v = r.partRead part name w := by
  rw [partRead, partRead, readMember_optional hmember, readMember_optional hmember]
  exact Except.map_map_congr (hvw.map_asList h) hpart

end SiteScript
