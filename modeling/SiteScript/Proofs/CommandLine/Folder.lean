import Mathlib.Data.List.Basic
import SiteScript.CommandLine.Folder

/-!
# Reading and writing files of a folder

A file that is written stands under the path that it was written to (`contents?_put`): it makes
directories of the names before its own at most (`isDirectory_put`), and so the path leads to it as
before (`resolve_put`).  All other files stay (`get?_put`), and reading changes nothing
(`run_read`).
-/

namespace SiteScript.Folder

/-! ## Parts of a path -/

theorem split_eq_splitOn (cs : List Char) : split cs = cs.splitOn '/' := by
  induction cs with
  | nil => rfl
  | cons c cs ih =>
    have hcons : (c :: cs).splitOn '/' =
        if c == '/' then [] :: cs.splitOn '/' else (cs.splitOn '/').modifyHead (List.cons c) :=
      List.splitOnP_cons_eq_if_modifyHead c cs
    rw [split, ih, hcons]
    by_cases hc : c = '/'
    · rw [if_pos hc, if_pos (beq_iff_eq.2 hc)]
    · rw [if_neg hc, if_neg (by simpa using hc)]
      cases hsplit : cs.splitOn '/' with
      | nil => exact absurd hsplit (List.splitOnP_ne_nil _ _)
      | cons part parts => rfl

theorem slash_not_mem_of_mem_split {cs part : List Char} (h : part ∈ split cs) : '/' ∉ part := by
  induction cs generalizing part with
  | nil =>
    rw [List.mem_singleton.1 h]
    exact List.not_mem_nil
  | cons c cs ih =>
    rw [split] at h
    split_ifs at h with hc
    · obtain rfl | h := List.mem_cons.1 h
      · exact List.not_mem_nil
      · exact ih h
    · cases hsplit : split cs with
      | nil => 
        rw [hsplit] at h
        rw [List.mem_singleton.1 h, List.mem_singleton]
        exact Ne.symm hc
      | cons first rest =>
        rw [hsplit] at h ih
        obtain rfl | h := List.mem_cons.1 h
        · rw [List.mem_cons, not_or]
          exact ⟨Ne.symm hc, ih List.mem_cons_self⟩
        · exact ih (List.mem_cons_of_mem _ h)

/-- Names without slashes, as a path goes along them. -/
def Slashless (names : List String) : Prop :=
  ∀ name ∈ names, '/' ∉ name.toList

instance (names : List String) : Decidable (Slashless names) :=
  inferInstanceAs (Decidable (∀ name ∈ names, '/' ∉ name.toList))

/-- Names without slashes are the parts of the path along them. -/
theorem parts_join {names : List String} (hne : names ≠ []) (h : Slashless names) :
    parts (join names) = names := by
  have hchars : (join names).toList = ['/'].intercalate (names.map String.toList) := by
    rw [join, String.toList_intercalate]
    rfl
  have hsplit : (['/'].intercalate (names.map String.toList)).splitOn '/' =
      names.map String.toList := by
    apply List.splitOn_intercalate
    · simpa [Slashless] using h
    · simpa using hne
  rw [parts, split_eq_splitOn, hchars, hsplit, List.map_map]
  simp

theorem slashless_parts (path : String) : Slashless (parts path) := by
  intro part h
  obtain ⟨cs, hcs, rfl⟩ := List.mem_map.1 h
  rw [String.toList_ofList]
  exact slash_not_mem_of_mem_split hcs

/-! ## Where a path leads to -/

/-- A file that is put into a folder adds the directories above it. -/
theorem isDirectory_put (d : Folder) (path : String) (bytes : ByteArray) (names : List String) :
    (d.put path bytes).isDirectory names =
      (d.isDirectory names || names.isPrefixOf (parts path).dropLast) := by
  have hany : ((d.put path bytes).any fun f => names.isPrefixOf (parts f.1).dropLast) =
      ((d.any fun f => names.isPrefixOf (parts f.1).dropLast) ||
        names.isPrefixOf (parts path).dropLast) := by
    rw [Bool.eq_iff_iff]
    simp only [put, List.any_cons, List.any_filter, Bool.or_eq_true, Bool.and_eq_true,
      List.any_eq_true, decide_eq_true_eq]
    constructor
    · rintro (hpath | ⟨f, hf, -, hprefix⟩)
      · exact .inr hpath
      · exact .inl ⟨f, hf, hprefix⟩
    · rintro (⟨f, hf, hprefix⟩ | hpath)
      · by_cases hname : f.1 = path
        · exact .inl (hname ▸ hprefix)
        · exact .inr ⟨f, hf, hname, hprefix⟩
      · exact .inl hpath
  simp only [isDirectory, hany, Bool.or_assoc]

theorem Slashless.concat {here : List String} (h : Slashless here) {part : String}
    (hpart : '/' ∉ part.toList) : Slashless (here ++ [part]) :=
  List.forall_mem_append.2 ⟨h, List.forall_mem_singleton.2 hpart⟩

theorem Slashless.parent {here : List String} (h : Slashless here) : Slashless (parent here) := by
  unfold Folder.parent
  split_ifs
  · decide
  · exact h.concat (by decide)
  · exact fun name hname => h name (List.dropLast_subset _ hname)

/-- What is put where a walk leads to does not lead it elsewhere. -/
theorem walk_put {d : Folder} {place : String} (bytes : ByteArray) {here rest : List String}
    (hhere : Slashless here) (hrest : Slashless rest) (h : d.walk here rest = .file place) :
    (d.put place bytes).walk here rest = .file place := by
  induction rest generalizing here with
  | nil => cases h
  | cons part rest ih =>
    obtain ⟨hpart, hrest⟩ := List.forall_mem_cons.1 hrest
    have hthere : Slashless (here ++ [part]) := hhere.concat hpart
    rw [walk] at h ⊢
    split_ifs at h with hskip hup hdir hlast hslashed
    · rw [if_pos hskip]
      exact ih hhere hrest h
    · rw [if_neg hskip, if_pos hup]
      exact ih hhere.parent hrest h
    · have hput : (d.put place bytes).isDirectory (here ++ [part]) = true := by
        rw [isDirectory_put, hdir]
        rfl
      rw [if_neg hskip, if_neg hup, if_pos hput]
      exact ih hthere hrest h
    · -- The directories that are added lie above the place, which is none of them.
      have hplace : place = join (here ++ [part]) := by
        unfold placeOf at h
        dsimp only at h
        split_ifs at h
        cases h
        rfl
      have hput : (d.put place bytes).isDirectory (here ++ [part]) = false := by
        have hlonger : (here ++ [part]).isPrefixOf here = false := by
          rw [Bool.eq_false_iff, Ne, List.isPrefixOf_iff_prefix]
          intro hprefix
          have hle := hprefix.length_le
          rw [List.length_append, List.length_singleton] at hle
          omega
        rw [isDirectory_put, hplace, parts_join (by simp) hthere, List.dropLast_concat, hlonger,
          Bool.or_false]
        simpa using hdir
      rw [if_neg hskip, if_neg hup, if_neg (by rw [hput]; decide), if_pos hlast]
      exact h

theorem resolve_put {d : Folder} {path place : String} (h : d.resolve path = .file place)
    (bytes : ByteArray) : (d.put place bytes).resolve path = .file place := by
  unfold resolve at h ⊢
  split_ifs at h ⊢ with hempty hlong hroot
  · exact walk_put bytes (by decide) (slashless_parts path) h
  · exact walk_put bytes (by decide) (slashless_parts path) h

/-! ## Contents -/

theorem get?_put (d : Folder) (path : String) (bytes : ByteArray) (other : String) :
    (d.put path bytes).get? other = if other = path then some bytes else d.get? other := by
  have hrest (h : other ≠ path) :
      List.lookup other (d.filter fun f => f.1 ≠ path) = List.lookup other d := by
    induction d with
    | nil => rfl
    | cons f d ih =>
      obtain ⟨name, content⟩ := f
      rw [List.lookup_cons]
      by_cases hname : name = path
      · rw [List.filter_cons_of_neg (by simpa using hname), ih]
        have hne : (other == name) = false := by simpa [hname] using h
        rw [hne]
      · rw [List.filter_cons_of_pos (by simpa using hname), List.lookup_cons, ih]
  unfold put get?
  rw [List.lookup_cons]
  by_cases h : other = path
  · simp [h]
  · have hne : (other == path) = false := by simpa using h
    rw [if_neg h, hne]
    exact hrest h

/-- A file that is written is found under the path that it was written to. -/
theorem contents?_put {d : Folder} {path place : String} (h : d.resolve path = .file place)
    (bytes : ByteArray) : (d.put place bytes).contents? path = some bytes := by
  rw [contents?, resolve_put h]
  show (d.put place bytes).get? place = _
  rw [get?_put, if_pos rfl]

/-! ## Access -/

/-- A file that is read is answered with its content, and the folder stays as it is. -/
theorem run_read (d : Folder) (path : String) :
    ∃ answer, (access.read path).run d = (answer, d) ∧
      ∀ bytes, answer = .ok bytes ↔ d.contents? path = some bytes := by
  unfold contents?
  simp only [access, StateT.run_bind, StateT.run_get, pure_bind]
  cases d.resolve path with
  | file place =>
    dsimp only
    cases hplace : d.get? place with
    | some bytes =>
      exact ⟨.ok bytes, rfl, by simp⟩
    | none => exact ⟨.error .notFound, rfl, by simp⟩
  | null => exact ⟨.ok .empty, rfl, by simp⟩
  | directory => exact ⟨.error .isDirectory, rfl, by simp⟩
  | slashed fault | unreachable fault => exact ⟨.error fault, rfl, by simp⟩

theorem run_write {d : Folder} {path place : String} (h : d.resolve path = .file place)
    (bytes : ByteArray) : (access.write path bytes).run d = (.ok (), d.put place bytes) := by
  simp only [access, StateT.run_bind, StateT.run_get, pure_bind, h]
  rfl

end SiteScript.Folder
