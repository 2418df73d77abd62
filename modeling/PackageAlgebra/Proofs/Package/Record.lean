import PackageAlgebra.Package.Record.Json
import PackageAlgebra.Proofs.Json
import PackageAlgebra.Proofs.Package.Basic
import PackageAlgebra.Proofs.Version.RoundTrip

/-! # Records are stored -/

namespace PackageAlgebra

open Json (Stored Plain)

-- ---------------------------------------------------------------------------
-- The parts of a record
-- ---------------------------------------------------------------------------

theorem Description.stored (d : Description) : Stored toJson ofJson? d where
  plain := .record (by simp [Plain.text, (Stored.optionText d.long).plain])
  decode_encode := by
    rw [ofJson?, toJson, Json.fields?_record (by rfl) (by decide)]
    refine Json.bind_of_eq rfl ?_
    refine Json.bind_of_eq (Stored.text d.short).decode_encode ?_
    exact Json.bind_of_eq (Stored.optionText d.long).decode_encode rfl

theorem Maintainer.stored (m : Maintainer) : Stored toJson ofJson? m where
  plain := .record (by simp [Plain.text, (Stored.optionText m.name).plain])
  decode_encode := by
    rw [ofJson?, toJson, Json.fields?_record (by rfl) (by decide)]
    refine Json.bind_of_eq rfl ?_
    refine Json.bind_of_eq (Stored.text m.email).decode_encode ?_
    exact Json.bind_of_eq (Stored.optionText m.name).decode_encode rfl

theorem MaintainerStatus.stored (s : MaintainerStatus) : Stored toJson ofJson? s where
  plain := .text s.name
  decode_encode := by cases s <;> rfl

theorem ProjectMaintainer.stored (m : ProjectMaintainer) : Stored toJson ofJson? m where
  plain := .record (by
    simp [Plain.text, (Stored.optionText m.email).plain, m.status.stored.plain])
  decode_encode := by
    rw [ofJson?, toJson, Json.fields?_record (by rfl) (by decide)]
    refine Json.bind_of_eq rfl ?_
    refine Json.bind_of_eq (Stored.text m.name).decode_encode ?_
    refine Json.bind_of_eq (Stored.optionText m.email).decode_encode ?_
    exact Json.bind_of_eq m.status.stored.decode_encode rfl

theorem ProjectDoc.stored (d : ProjectDoc) : Stored toJson ofJson? d where
  plain := .record (by simp [Plain.text])
  decode_encode := by
    rw [ofJson?, toJson, Json.fields?_record (by rfl) (by decide)]
    rfl

theorem RemoteId.stored (r : RemoteId) : Stored toJson ofJson? r where
  plain := .record (by simp [Plain.text])
  decode_encode := by
    rw [ofJson?, toJson, Json.fields?_record (by rfl) (by decide)]
    rfl

theorem Project.stored (u : Project) : Stored toJson ofJson? u := by
  have hdocs := Stored.list fun d (_ : d ∈ u.docs) => d.stored
  have hmaintainers := Stored.list fun m (_ : m ∈ u.maintainers) => m.stored
  have hremoteIds := Stored.list fun r (_ : r ∈ u.remoteIds) => r.stored
  constructor
  · exact .record (by
      simp [(Stored.optionText _).plain, hdocs.plain, hmaintainers.plain, hremoteIds.plain])
  · rw [ofJson?, toJson, Json.fields?_record (by rfl) (by decide)]
    refine Json.bind_of_eq rfl ?_
    refine Json.bind_of_eq (Stored.optionText u.bugsTo).decode_encode ?_
    refine Json.bind_of_eq (Stored.optionText u.changelog).decode_encode ?_
    refine Json.bind_of_eq hdocs.decode_encode ?_
    refine Json.bind_of_eq hmaintainers.decode_encode ?_
    exact Json.bind_of_eq hremoteIds.decode_encode rfl

namespace Metadata

theorem insertEntry_of_lt {name value : String} {entries : List (String × String)}
    (h : ∀ e ∈ entries, e.1 < name) :
    insertEntry name value entries = entries ++ [(name, value)] := by
  induction entries with
  | nil => rfl
  | cons e entries ih =>
    have he : e.1 < name := h e (by simp)
    rw [insertEntry, if_neg (String.lt_asymm he), if_neg (String.ne_of_lt he).symm,
      ih fun e he => h e (by simp [he]), List.cons_append]

theorem entries_foldl_insert {m : Metadata} {entries : List (String × String)}
    (h : (m.entries ++ entries).Pairwise fun a b => a.1 < b.1) :
    (entries.foldl (fun m (name, value) => m.insert name value) m).entries =
      m.entries ++ entries := by
  induction entries generalizing m with
  | nil => exact (List.append_nil _).symm
  | cons e entries ih =>
    have hlast : ∀ a ∈ m.entries, a.1 < e.1 := fun a ha =>
      (List.pairwise_append.mp h).2.2 a ha e (by simp)
    have hinsert : (m.insert e.1 e.2).entries = m.entries ++ [e] := insertEntry_of_lt hlast
    rw [List.foldl_cons, ih (by rwa [hinsert, List.append_assoc]), hinsert, List.append_assoc,
      List.singleton_append]

theorem ofList_entries (m : Metadata) : ofList m.entries = m := by
  have h : (ofList m.entries).entries = m.entries := entries_foldl_insert m.sorted
  cases hlist : ofList m.entries
  cases m
  simpa [hlist] using h

theorem stored (m : Metadata) : Stored toJson ofJson? m where
  plain := .record fun member hmember => by
    obtain ⟨e, -, rfl⟩ := List.mem_map.mp hmember
    exact .text e.2
  decode_encode := by
    refine Json.bind_of_eq (Json.members?_record _) ?_
    refine Json.bind_of_eq (Text.mapM_map_eq_some fun _ _ => rfl) ?_
    exact congrArg some m.ofList_entries

end Metadata

-- ---------------------------------------------------------------------------
-- Records
-- ---------------------------------------------------------------------------

namespace PackageRecord

theorem keyOfJson?_text {key : PackageKey} (h : key.WellFormed) :
    keyOfJson? (.text (toString key)) = some key :=
  congrArg Except.toOption (PackageKey.parse_chars h)

theorem versionOfJson?_text (v : Version) : versionOfJson? (.text (toString v)) = some v :=
  congrArg Except.toOption v.parse_chars

theorem plain_toJson (r : PackageRecord) : Plain r.toJson := by
  have hmaintainers := Stored.list fun m (_ : m ∈ r.maintainers) => m.stored
  exact .record (by
    simp [Plain.text, Plain.bool, (Stored.optionText _).plain, (Stored.texts _).plain,
      (Stored.optionTexts _).plain, r.description.stored.plain, hmaintainers.plain,
      r.project.stored.plain, r.metadata.stored.plain])

/-- The record as an index keeps it, without its priority. -/
def unranked (r : PackageRecord) : PackageRecord :=
  { r with priority := 0 }

theorem ofJson?_toJson {r : PackageRecord} (h : r.key.WellFormed) :
    ofJson? r.toJson = some r.unranked := by
  rw [ofJson?, toJson, Json.fields?_record (by rfl) (by decide)]
  -- field by field, in the order in which they are read
  refine Json.bind_of_eq rfl ?_
  refine Json.bind_of_eq (keyOfJson?_text h) ?_
  refine Json.bind_of_eq (versionOfJson?_text r.version) ?_
  refine Json.bind_of_eq (Stored.text r.slot).decode_encode ?_
  refine Json.bind_of_eq (Stored.optionText r.subslot).decode_encode ?_
  refine Json.bind_of_eq (Stored.optionText r.repository).decode_encode ?_
  refine Json.bind_of_eq (Stored.optionText r.path).decode_encode ?_
  refine Json.bind_of_eq (Stored.text r.eapi).decode_encode ?_
  refine Json.bind_of_eq r.description.stored.decode_encode ?_
  refine Json.bind_of_eq (Stored.texts r.homepages).decode_encode ?_
  refine Json.bind_of_eq (Stored.texts r.keywords).decode_encode ?_
  refine Json.bind_of_eq (Stored.texts r.inherits).decode_encode ?_
  refine Json.bind_of_eq (Stored.texts r.iuse).decode_encode ?_
  refine Json.bind_of_eq (Stored.texts r.appliedUse).decode_encode ?_
  refine Json.bind_of_eq (Stored.text r.license).decode_encode ?_
  refine Json.bind_of_eq (Stored.text r.restrict).decode_encode ?_
  refine Json.bind_of_eq (Stored.text r.properties).decode_encode ?_
  refine Json.bind_of_eq (Stored.text r.requiredUse).decode_encode ?_
  refine Json.bind_of_eq (Stored.text r.buildDependencies).decode_encode ?_
  refine Json.bind_of_eq (Stored.optionText r.cbuildBuildDependencies).decode_encode ?_
  refine Json.bind_of_eq (Stored.text r.runDependencies).decode_encode ?_
  refine Json.bind_of_eq (Stored.text r.postDependencies).decode_encode ?_
  refine Json.bind_of_eq (Stored.optionTexts r.definedPhases).decode_encode ?_
  refine Json.bind_of_eq (Stored.bool r.repoMasked).decode_encode ?_
  refine Json.bind_of_eq (Stored.list fun m _ => m.stored).decode_encode ?_
  refine Json.bind_of_eq r.project.stored.decode_encode ?_
  refine Json.bind_of_eq r.metadata.stored.decode_encode ?_
  rfl

theorem wellFormed_of_keyOfJson? {j : Json} {key : PackageKey} (h : keyOfJson? j = some key) :
    key.WellFormed := by
  obtain ⟨text, -, hkey⟩ := Option.bind_eq_some_iff.mp h
  cases hparse : PackageKey.parse text with
  | error e => rw [hparse] at hkey; cases hkey
  | ok parsed =>
    rw [hparse] at hkey
    cases hkey
    exact PackageKey.wellFormed_of_parse hparse

theorem wellFormed_of_ofJson? {j : Json} {r : PackageRecord} (h : ofJson? j = some r) :
    r.key.WellFormed := by
  obtain ⟨field, -, h⟩ := Option.bind_eq_some_iff.mp h
  obtain ⟨key, hkey, h⟩ := Option.bind_eq_some_iff.mp h
  obtain ⟨j, -, hkey⟩ := Option.bind_eq_some_iff.mp hkey
  have hr : r.key = key := by
    -- the fields behind the key
    iterate 25 obtain ⟨_, -, h⟩ := Option.bind_eq_some_iff.mp h
    cases h
    rfl
  rw [hr]
  exact wellFormed_of_keyOfJson? hkey

end PackageRecord

end PackageAlgebra
