import PackageAlgebra.Proofs.Files
import PackageAlgebra.Proofs.Package.Record
import PackageAlgebra.Repository.Basic

/-!
# An index survives a save and a load

A repository fills in the name and the priority of its packages when it is
built, and renaming keeps them filled in. It knows its own packages by the name
that they carry, so a package of another repository goes along with a rename
once the two names were the same.
-/

namespace PackageAlgebra

open Json (Stored Plain)

-- ---------------------------------------------------------------------------
-- Indexes as documents
-- ---------------------------------------------------------------------------

namespace RepositoryIndex

theorem plain_toJson (index : RepositoryIndex) : Plain index.toJson :=
  .record (by
    simpa using ⟨Plain.text _, Plain.array (by simpa using fun r _ => r.plain_toJson)⟩)

theorem ofJson?_toJson {index : RepositoryIndex} (h : ∀ r ∈ index.packages, r.key.WellFormed) :
    ofJson? index.toJson = some ⟨index.name, index.packages.map (·.unranked)⟩ := by
  have hpackages : (index.packages.map PackageRecord.toJson).mapM PackageRecord.ofJson? =
      some (index.packages.map (·.unranked)) :=
    Text.mapM_map_eq_map fun r hr => PackageRecord.ofJson?_toJson (h r hr)
  rw [ofJson?, toJson, Json.fields?_record (by rfl) (by decide)]
  refine Json.bind_of_eq rfl ?_
  refine Json.bind_of_eq (Stored.text index.name).decode_encode ?_
  exact Json.bind_of_eq hpackages rfl

theorem wellFormed_of_ofJson? {j : Json} {index : RepositoryIndex} (h : ofJson? j = some index) :
    ∀ r ∈ index.packages, r.key.WellFormed := by
  intro r hr
  obtain ⟨field, -, h⟩ := Option.bind_eq_some_iff.mp h
  obtain ⟨name, -, h⟩ := Option.bind_eq_some_iff.mp h
  obtain ⟨packages, hpackages, h⟩ := Option.bind_eq_some_iff.mp h
  cases h
  cases hfield : field "packages" with
  | none => rw [hfield] at hpackages; cases hpackages; cases hr
  | some j =>
    rw [hfield, Json.defaulted_some] at hpackages
    obtain ⟨item, hitem⟩ := Json.exists_of_mem_list? hpackages hr
    exact PackageRecord.wellFormed_of_ofJson? hitem

theorem wellFormed_of_ofFile? {path : String} {bytes : ByteArray} {index : RepositoryIndex}
    (h : ofFile? path bytes = some index) : ∀ r ∈ index.packages, r.key.WellFormed := by
  obtain ⟨j, -, hindex⟩ := Option.bind_eq_some_iff.mp h
  exact wellFormed_of_ofJson? hindex

theorem ofFile?_indented {index : RepositoryIndex} (h : ∀ r ∈ index.packages, r.key.WellFormed)
    {path : String} (hpath : Path.hasExtension "gz" path = false) :
    ofFile? path index.toJson.indented.toUTF8 =
      some ⟨index.name, index.packages.map (·.unranked)⟩ := by
  have hdocument : Json.ofBytes? index.toJson.indented.toUTF8 = some index.toJson := by
    rw [Json.ofBytes?_toUTF8, Json.ofString?_indented index.plain_toJson]
  rw [ofFile?, hpath, if_neg Bool.false_ne_true, Option.bind_some, hdocument, Option.bind_some,
    ofJson?_toJson h]

end RepositoryIndex

-- ---------------------------------------------------------------------------
-- Repositories
-- ---------------------------------------------------------------------------

namespace Repository

/-- The repositories that can be had: from records with keys that were read, from an index of
such records, from a file, and by renaming. -/
inductive Reachable : Repository → Prop
  | ofRecords (name : String) (priority : Int32) {records : List PackageRecord}
    (h : ∀ r ∈ records, ∃ text, PackageKey.parse text = .ok r.key) :
    Reachable (.ofRecords name priority records)
  | ofIndex {index : RepositoryIndex} (priority : Int32)
    (h : ∀ r ∈ index.packages, ∃ text, PackageKey.parse text = .ok r.key) :
    Reachable (.ofIndex index priority)
  | load {files : FileReader} {path : String} {priority : Int32} {r : Repository}
    (h : load files path priority = .ok r) : Reachable r
  | rename {r : Repository} (h : Reachable r) (name : String) : Reachable (r.rename name)

/-- Every package has a key that can be read again, and what it owes to the repository is
filled in. -/
structure Filled (r : Repository) : Prop where
  key : ∀ p ∈ r.packages, p.key.WellFormed
  repository : ∀ p ∈ r.packages, p.repository.isSome = true
  priority : ∀ p ∈ r.packages, p.priority = r.priority

theorem filled_ofRecords {name : String} {priority : Int32} {records : List PackageRecord}
    (h : ∀ r ∈ records, r.key.WellFormed) : Filled (ofRecords name priority records) := by
  constructor <;> intro p hp <;> obtain ⟨r, hr, rfl⟩ := List.mem_map.mp hp
  · exact h r hr
  · rfl
  · rfl

theorem Filled.rename {r : Repository} (h : Filled r) (name : String) : Filled (r.rename name) := by
  constructor <;> intro p hp <;> obtain ⟨q, hq, rfl⟩ := List.mem_map.mp hp
  · split
    · exact h.key q hq
    · exact h.key q hq
  · split
    · rfl
    · exact h.repository q hq
  · split
    · exact h.priority q hq
    · exact h.priority q hq

theorem filled_of_load {files : FileReader} {path : String} {priority : Int32} {r : Repository}
    (h : load files path priority = .ok r) : Filled r := by
  rw [Repository.load] at h
  split at h
  · cases h
  · cases h
  next bytes _ =>
    split at h
    next index hindex =>
      cases h
      exact filled_ofRecords (RepositoryIndex.wellFormed_of_ofFile? hindex)
    next => cases h

theorem wellFormed_of_parsed {records : List PackageRecord}
    (h : ∀ r ∈ records, ∃ text, PackageKey.parse text = .ok r.key) :
    ∀ r ∈ records, r.key.WellFormed := by
  intro r hr
  obtain ⟨text, htext⟩ := h r hr
  exact PackageKey.wellFormed_of_parse htext

theorem Reachable.filled {r : Repository} (h : Reachable r) : Filled r := by
  induction h with
  | ofRecords _ _ h => exact filled_ofRecords (wellFormed_of_parsed h)
  | ofIndex _ h => exact filled_ofRecords (wellFormed_of_parsed h)
  | load h => exact filled_of_load h
  | rename _ name ih => exact ih.rename name

theorem load_indented {files : FileReader} {path : String} {index : RepositoryIndex}
    (hfile : files path = .ok index.toJson.indented.toUTF8)
    (hpath : Path.hasExtension "gz" path = false) (h : ∀ r ∈ index.packages, r.key.WellFormed)
    (priority : Int32) : load files path priority = .ok (ofIndex index priority) := by
  have hindex := RepositoryIndex.ofFile?_indented h hpath
  have hadopt : (index.packages.map (·.unranked)).map (adopt index.name priority) =
      index.packages.map (adopt index.name priority) := List.map_map
  rw [load, hfile]
  simp only [hindex, ofIndex, ofRecords, hadopt]

theorem Filled.ofIndex_unranked {r : Repository} (h : Filled r) :
    ofIndex ⟨r.name, r.packages.map (·.unranked)⟩ r.priority = r := by
  have hadopt : ∀ p ∈ r.packages, adopt r.name r.priority p.unranked = p := by
    intro p hp
    have hpriority := h.priority p hp
    obtain ⟨repository, hrepository⟩ := Option.isSome_iff_exists.mp (h.repository p hp)
    cases p
    subst hpriority hrepository
    rfl
  have hpackages : (r.packages.map (·.unranked)).map (adopt r.name r.priority) = r.packages := by
    rw [List.map_map]
    exact (List.map_congr_left hadopt).trans (List.map_id _)
  rw [ofIndex, ofRecords, hpackages]

/-- Wherever a file can be written, the repository can be saved and is loaded from there with all
its packages as they were. -/
theorem load_save {r : Repository} (hr : Reachable r) {tree : FileTree} {path : String}
    (hwritable : tree.Writable path) (hpath : Path.hasExtension "gz" path = false) :
    ∃ tree', r.save tree path = .ok tree' ∧ load tree'.read path r.priority = .ok r := by
  have hfilled := hr.filled
  obtain ⟨tree', hwrite⟩ := hwritable.write_ok r.document.toUTF8
  have hindex : RepositoryIndex.ofFile? path r.document.toUTF8 =
      some ⟨r.name, r.packages.map (·.unranked)⟩ :=
    RepositoryIndex.ofFile?_indented hfilled.key hpath
  refine ⟨tree', by rw [save, hwrite]; rfl, ?_⟩
  rw [load, FileTree.read_write hwrite]
  simp only [hindex, hfilled.ofIndex_unranked]

theorem load_save_renamed :
    ∃ v w : Version,
      let foreign : PackageRecord :=
        { PackageRecord.bare ⟨some "a", "b-c"⟩ v with
          repository := some "other"
          definedPhases := some []
          maintainers := [⟨"m@x", none⟩]
          metadata := .ofList [("B", "\"\n"), ("A", "é")] }
      let r := (ofRecords "x" 5 [foreign, PackageRecord.bare ⟨none, "d"⟩ w]).rename "y"
      toString v = "1.02_rc-r3" ∧ toString w = "2b" ∧
        r.packages.map (·.repository) = [some "other", some "y"] ∧
        ∃ tree', r.save (.empty [['t']]) "/t/index.json" = .ok tree' ∧
          load tree'.read "/t/index.json" 5 = .ok r := by
  refine ⟨⟨⟨['1'], rfl⟩, [⟨['0', '2'], rfl⟩], none, [⟨.rc, none⟩], 3⟩,
    ⟨⟨['2'], rfl⟩, [], some ⟨'b', rfl⟩, [], 0⟩, by rfl, by rfl, by rfl, ?_⟩
  refine load_save (.rename (.ofRecords "x" 5 ?_) "y") ⟨.empty, _, rfl⟩ (by rfl)
  intro r hr
  rcases List.mem_cons.mp hr with rfl | hr
  · exact ⟨"a/b-c", rfl⟩
  · obtain rfl := List.mem_singleton.mp hr
    exact ⟨"d", rfl⟩

end Repository

-- ---------------------------------------------------------------------------
-- Changing names
-- ---------------------------------------------------------------------------

namespace PackageRecord

/-- The record with another repository name, if it carries one. -/
def recarry (f : String → String) (r : PackageRecord) : PackageRecord :=
  { r with repository := r.repository.map f }

theorem recarry_recarry (f g : String → String) (r : PackageRecord) :
    (r.recarry f).recarry g = r.recarry fun carried => g (f carried) := by
  simp [recarry, Function.comp_def]

theorem recarry_eq_iff {f g : String → String} {r : PackageRecord} :
    r.recarry f = r.recarry g ↔ ∀ carried ∈ r.repository, f carried = g carried := by
  cases h : r.repository <;> simp [recarry, h]

theorem recarry_eq_self {f : String → String} {r : PackageRecord}
    (h : ∀ carried ∈ r.repository, f carried = carried) : r.recarry f = r := by
  have hself : r.recarry (fun carried => carried) = r := by simp [recarry]
  exact (recarry_eq_iff.mpr h).trans hself

end PackageRecord

namespace Repository

open PackageRecord (recarry recarry_recarry recarry_eq_iff recarry_eq_self)

/-- What becomes of a carried name when the repository called `own` is renamed. -/
def passOn (own name carried : String) : String :=
  if carried = own then name else carried

theorem rename_eq (r : Repository) (name : String) :
    r.rename name = ⟨name, r.priority, r.packages.map (recarry (passOn r.name name))⟩ := by
  have hpackage : ∀ p : PackageRecord,
      (if p.repository = some r.name then { p with repository := some name } else p) =
        p.recarry (passOn r.name name) := by
    intro p
    split
    next hown => simp [recarry, passOn, hown]
    next hother =>
      refine (recarry_eq_self fun carried h => if_neg ?_).symm
      rintro rfl
      exact hother h
  rw [rename]
  simp only [hpackage]

/-- A name in between makes a difference to a package that carries it. -/
theorem passOn_passOn_iff {own x y carried : String} :
    passOn x y (passOn own x carried) = passOn own y carried ↔
      x = own ∨ x = y ∨ carried ≠ x := by
  simp only [passOn]
  grind

theorem rename_rename_iff (r : Repository) (x y : String) :
    (r.rename x).rename y = r.rename y ↔
      x = r.name ∨ x = y ∨ ∀ p ∈ r.packages, p.repository ≠ some x := by
  have hpackages : (r.rename x).rename y = r.rename y ↔
      ∀ p ∈ r.packages, ∀ carried ∈ p.repository, x = r.name ∨ x = y ∨ carried ≠ x := by
    simp [rename_eq, recarry_recarry, recarry_eq_iff, passOn_passOn_iff]
  have hcarries : ∀ p : PackageRecord,
      (∀ carried ∈ p.repository, carried ≠ x) ↔ p.repository ≠ some x := by
    intro p
    cases p.repository <;> simp
  rw [hpackages]
  by_cases hname : x = r.name
  · simp [hname]
  · by_cases hlast : x = y
    · simp [hlast]
    · simp only [hname, hlast, false_or, hcarries]

-- ---------------------------------------------------------------------------
-- A run of renames
-- ---------------------------------------------------------------------------

/-- What becomes of a carried name in a run of renames: a name that the repository bore before its
last one is replaced by that. -/
def carriedAfter (own : String) (names : List String) (carried : String) : String :=
  if carried = own ∨ carried ∈ names.dropLast then names.getLastD own else carried

@[simp] theorem carriedAfter_own (own : String) (names : List String) :
    carriedAfter own names own = names.getLastD own := by
  rw [carriedAfter, if_pos (.inl rfl)]

theorem carriedAfter_nil (own carried : String) : carriedAfter own [] carried = carried := by
  by_cases h : carried = own
  · rw [h, carriedAfter_own]
    rfl
  · simp [carriedAfter, h]

theorem carriedAfter_cons (own name : String) (names : List String) (carried : String) :
    carriedAfter own (name :: names) carried =
      carriedAfter name names (passOn own name carried) := by
  by_cases h : carried = own
  · rw [h, carriedAfter_own, passOn, if_pos rfl, carriedAfter_own, List.getLastD_cons]
  · rw [passOn, if_neg h, carriedAfter, carriedAfter, List.getLastD_cons]
    -- the first name counts as borne before only if another one comes behind it
    cases names with
    | nil => simp [h]
    | cons next names => simp [h]

theorem foldl_rename (r : Repository) (names : List String) :
    names.foldl rename r = ⟨names.getLastD r.name, r.priority,
      r.packages.map (recarry (carriedAfter r.name names))⟩ := by
  induction names generalizing r with
  | nil =>
    have hsame : recarry (carriedAfter r.name []) = id :=
      funext fun p => recarry_eq_self fun carried _ => carriedAfter_nil r.name carried
    rw [hsame, List.map_id]
    rfl
  | cons name names ih =>
    have hcarried : recarry (carriedAfter r.name (name :: names)) =
        recarry (carriedAfter name names) ∘ recarry (passOn r.name name) := by
      funext p
      rw [Function.comp_apply, recarry_recarry, funext (carriedAfter_cons r.name name names)]
    rw [List.foldl_cons, ih, rename_eq, List.getLastD_cons, List.map_map, hcarried]

/-- What a package of an index carries after renames: the name in its record, unless the repository
bore that before its last name. Of two further renames the first can be left out if it changes
nothing, if the second repeats it or if no package carries its name, and only then. -/
theorem foldl_rename_ofIndex (index : RepositoryIndex) (priority : Int32) (names : List String) :
    let r := names.foldl rename (ofIndex index priority)
    r.name = names.getLastD index.name ∧
      r.packages = index.packages.map (fun p =>
        { p with
          repository := some (match p.repository with
            | some carried =>
              if carried = index.name ∨ carried ∈ names.dropLast then r.name else carried
            | none => r.name)
          priority }) ∧
      ∀ x y, (r.rename x).rename y = r.rename y ↔
        x = r.name ∨ x = y ∨ ∀ p ∈ r.packages, p.repository ≠ some x := by
  intro r
  have hr : r = ⟨names.getLastD index.name, priority, (index.packages.map
      (adopt index.name priority)).map (recarry (carriedAfter index.name names))⟩ :=
    foldl_rename (ofIndex index priority) names
  refine ⟨congrArg (·.name) hr, ?_, rename_rename_iff r⟩
  rw [hr, List.map_map]
  refine List.map_congr_left fun p _ => ?_
  cases h : p.repository with
  | none => simp [adopt, recarry, h]
  | some carried => simp [adopt, recarry, carriedAfter, h]

/-- A package of another repository goes along once the two have had one name. -/
theorem rename_takes_along :
    ∃ v : Version,
      let index : RepositoryIndex :=
        ⟨"a", [{ PackageRecord.bare ⟨some "a", "b"⟩ v with repository := some "b" }]⟩
      let r := ["b", "c"].foldl rename (ofIndex index 0)
      index.packages.map (·.repository) = [some "b"] ∧ r.name = "c" ∧
        r.packages.map (·.repository) = [some "c"] ∧
        ((ofIndex index 0).rename "c").packages.map (·.repository) = [some "b"] :=
  ⟨⟨⟨['1'], rfl⟩, [], none, [], 0⟩, rfl, rfl, rfl, rfl⟩

end Repository

end PackageAlgebra
