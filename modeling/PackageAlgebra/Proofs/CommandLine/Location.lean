import PackageAlgebra.CommandLine.Reply
import PackageAlgebra.Proofs.Except
import PackageAlgebra.Proofs.Files
import PackageAlgebra.Proofs.Json

/-!
# Where the indexes of a request lie

All paths in a configuration, those given by themselves included, are joined to
the directory of its file. So a relative path leads elsewhere with a stack file
than without one, unless the file lies in the directory from which relative
paths are read.
-/

namespace PackageAlgebra

theorem RepositoryEntry.path_ne_empty_of_parse {text : String} {e : RepositoryEntry}
    (h : parse text = .ok e) : e.path ≠ "" := by
  rw [parse] at h
  split at h
  · simp only at h
    split at h
    · cases h
    next hpath _ =>
      cases h
      exact fun hempty => hpath (String.ofList_eq_empty_iff.mp hempty)
  · cases h
  · simp only at h
    split at h
    · cases h
    next hpath _ =>
      cases h
      exact fun hempty => hpath (String.ofList_eq_empty_iff.mp hempty)

namespace StackConfig

variable {files : FileReader} {path : String} {config : StackConfig}

theorem load_ok (h : load files path = .ok config) :
    config.directory = some (Path.directory path) ∧ ∃ bytes, files path = .ok bytes := by
  rw [load] at h
  obtain ⟨bytes, hbytes, h⟩ := bind_ok.mp h
  refine ⟨?_, bytes, ?_⟩
  · split at h
    · cases h
    · split at h
      · cases h
      · cases h
        rfl
  · cases hfile : files path with
    | error e =>
      rw [hfile] at hbytes
      cases hbytes
    | ok bytes' =>
      rw [hfile] at hbytes
      cases hbytes
      rfl

theorem load_text {text : String} {entries : List RepositoryEntry}
    (hfile : files path = .ok text.toUTF8)
    (hentries : (Json.ofString? text).bind ofJson? = some entries) :
    load files path = .ok ⟨entries, some (Path.directory path)⟩ := by
  rw [load, hfile]
  simp only [Except.mapError, bind, Except.bind, Text.fromUTF8?_toUTF8, hentries]
  rfl

theorem path_sources (config : StackConfig) :
    config.sources.map (·.path) = config.entries.map fun e => config.resolvePath e.path := by
  have hentries := congrArg (List.map fun e => config.resolvePath e.path)
    (List.zipIdx_map_fst 0 config.entries)
  rw [List.map_map] at hentries
  rw [sources, List.map_map]
  exact hentries

theorem path_sources_extend (config : StackConfig) (entries : List RepositoryEntry) :
    (config.extend entries).sources.map (·.path) =
      config.sources.map (·.path) ++ entries.map fun e => config.resolvePath e.path := by
  rw [path_sources, path_sources, extend, List.map_append]
  rfl

end StackConfig

namespace CommandLine

open FileTree (maxPath)

variable {tree : FileTree} {file : String} {home : Location}

/-- The place to which a path leads that is read from a directory, which is given by its place and
by a path to it. -/
def placeFrom (tree : FileTree) (directory : String) (home : Location) (path : String) :
    Except FileError Location :=
  if Path.isAbsolute path then tree.locate path
  else if '\x00' ∈ path.toList then .error .invalidName
  else if maxPath < (Path.join directory path).utf8ByteSize then .error .nameTooLong
  else tree.follow home (Path.names path)

theorem placeFrom_current {path : String} (h : path ≠ "") :
    placeFrom tree "" tree.current path = tree.locate path := by
  rw [placeFrom]
  split
  · rfl
  next hpath =>
    rw [Path.join_empty, FileTree.locate_relative h (by simpa using hpath)]

theorem placeFrom_home {bytes : ByteArray} {path : String} (hread : tree.read file = .ok bytes)
    (hhome : tree.home file = .ok home) (h : path ≠ "") :
    placeFrom tree (Path.directory file) home path =
      tree.locate (Path.join (Path.directory file) path) := by
  rw [placeFrom]
  split
  next hpath => rw [Path.join_of_isAbsolute hpath]
  next hpath =>
    obtain ⟨directory, hdirectory, hlocate⟩ := FileTree.locate_join hread h (by simpa using hpath)
    obtain rfl : home = directory := Except.ok.inj (hhome.symm.trans hdirectory)
    rw [hlocate]

theorem placeFrom_eq_current {path directory : String}
    (h : Path.isAbsolute path = false →
      home = tree.current ∧ (Path.join directory path).utf8ByteSize ≤ maxPath) :
    placeFrom tree directory home path = placeFrom tree "" tree.current path := by
  rw [placeFrom, placeFrom]
  split
  · rfl
  next hpath =>
    obtain ⟨rfl, hsize⟩ := h (by simpa using hpath)
    have hle := Path.size_le_join directory path
    rw [Path.join_empty, if_neg (Nat.not_lt.mpr hsize), if_neg (Nat.not_lt.mpr (hle.trans hsize))]

theorem placeFrom_of_fileName {path directory : String} (h : FileTree.IsFileName path)
    (hsize : (Path.join directory path).utf8ByteSize ≤ maxPath) :
    placeFrom tree directory home path = .ok (home ++ [path.toList]) := by
  have hpath : Path.isAbsolute path = false := Path.isAbsolute_of_not_mem h.1
  rw [placeFrom, hpath, if_neg Bool.false_ne_true, if_neg h.2.1, if_neg (by omega), h.follow]

/-- The places to which the paths of the indexes lead. -/
def Stacking.places (tree : FileTree) (s : Stacking) : List (Except FileError Location) :=
  (s.indexPaths tree.read).map tree.locate

namespace Stacking

theorem places_plain (tree : FileTree) (entries : List RepositoryEntry) :
    places tree ⟨none, entries⟩ = entries.map fun e => tree.locate e.path := by
  have hpaths : indexPaths tree.read ⟨none, entries⟩ = entries.map (·.path) :=
    StackConfig.path_sources (.ofEntries entries)
  rw [places, hpaths, List.map_map]
  rfl

theorem places_config {config : StackConfig} (h : StackConfig.load tree.read file = .ok config)
    (entries : List RepositoryEntry) :
    places tree ⟨some file, entries⟩ = places tree ⟨some file, []⟩ ++
      entries.map fun e => tree.locate (Path.join (Path.directory file) e.path) := by
  obtain ⟨hdirectory, -⟩ := StackConfig.load_ok h
  have hpaths (entries : List RepositoryEntry) : indexPaths tree.read ⟨some file, entries⟩ =
      config.sources.map (·.path) ++
        entries.map fun e => Path.join (Path.directory file) e.path := by
    have hconfiguration :
        configuration tree.read ⟨some file, entries⟩ = .ok (config.extend entries) := by
      rw [configuration]
      simp only [h]
      rfl
    rw [indexPaths, hconfiguration]
    change (config.extend entries).sources.map (·.path) = _
    rw [StackConfig.path_sources_extend]
    simp only [StackConfig.resolvePath, hdirectory]
  rw [places, places, hpaths, hpaths, List.map_append, List.map_append, List.map_map]
  simp [Function.comp_def]

/-- With a stack file, the entries lead where they lead without one. -/
def Agrees (tree : FileTree) (file : String) (entries : List RepositoryEntry) : Prop :=
  places tree ⟨some file, entries⟩ = places tree ⟨some file, []⟩ ++ places tree ⟨none, entries⟩

/-- The entries of a request are read from the directory of the stack file, if there is one. That
is no other place if the paths are absolute or the file lies in the directory from which relative
paths are read; else any name of a file leads to another place. -/
theorem places_entries {config : StackConfig}
    (hload : StackConfig.load tree.read file = .ok config) {entries : List RepositoryEntry}
    (hentries : ∀ e ∈ entries, ∃ text, RepositoryEntry.parse text = .ok e) :
    ∃ home, tree.home file = .ok home ∧
      places tree ⟨none, entries⟩ =
        entries.map (fun e => placeFrom tree "" tree.current e.path) ∧
      places tree ⟨some file, entries⟩ = places tree ⟨some file, []⟩ ++
        entries.map (fun e => placeFrom tree (Path.directory file) home e.path) ∧
      ((∀ e ∈ entries, Path.isAbsolute e.path = false → home = tree.current ∧
          (Path.join (Path.directory file) e.path).utf8ByteSize ≤ maxPath) →
        Agrees tree file entries) ∧
      (Agrees tree file entries → ∀ e ∈ entries, FileTree.IsFileName e.path →
        (Path.join (Path.directory file) e.path).utf8ByteSize ≤ maxPath → home = tree.current) := by
  obtain ⟨-, bytes, hread⟩ := StackConfig.load_ok hload
  obtain ⟨home, hhome, -⟩ := FileTree.follow_join hread (show Path.isAbsolute "" = false from rfl)
  have hpath : ∀ e ∈ entries, e.path ≠ "" := by
    intro e he
    obtain ⟨text, htext⟩ := hentries e he
    exact RepositoryEntry.path_ne_empty_of_parse htext
  have hplain : places tree ⟨none, entries⟩ =
      entries.map fun e => placeFrom tree "" tree.current e.path := by
    rw [places_plain]
    exact List.map_congr_left fun e he => (placeFrom_current (hpath e he)).symm
  have hconfig : places tree ⟨some file, entries⟩ = places tree ⟨some file, []⟩ ++
      entries.map fun e => placeFrom tree (Path.directory file) home e.path := by
    rw [places_config hload]
    exact congrArg _ (List.map_congr_left fun e he =>
      (placeFrom_home hread hhome (hpath e he)).symm)
  refine ⟨home, hhome, hplain, hconfig, fun h => ?_, fun h e he hname hsize => ?_⟩
  · rw [Agrees, hplain, hconfig]
    exact congrArg _ (List.map_congr_left fun e he => placeFrom_eq_current (h e he))
  · rw [Agrees, hplain, hconfig, List.append_cancel_left_eq, List.map_inj_left] at h
    have hplace := h e he
    have hplainsize : (Path.join "" e.path).utf8ByteSize ≤ maxPath := by
      rw [Path.join_empty]
      exact Nat.le_trans (Path.size_le_join _ _) hsize
    rw [placeFrom_of_fileName hname hsize, placeFrom_of_fileName hname hplainsize] at hplace
    exact List.append_cancel_right (Except.ok.inj hplace)

/-- A tree with a stack file in `conf`, which has no entries, and an index above it. -/
def treeBelow : FileTree where
  current := []
  files := [(["conf".toList, "stack.json".toList],
      (Json.record [("repositories", .array [])]).compact.toUTF8),
    (["index.json".toList], (RepositoryIndex.mk "x" []).toJson.compact.toUTF8)]

theorem load_treeBelow :
    StackConfig.load treeBelow.read "conf/stack.json" = .ok ⟨[], some "conf"⟩ := by
  have hlocate : treeBelow.locate "conf/stack.json" =
      .ok ["conf".toList, "stack.json".toList] := by decide
  have hread : treeBelow.read "conf/stack.json" =
      .ok (Json.record [("repositories", .array [])]).compact.toUTF8 := by
    rw [FileTree.read, hlocate]
    simp only [bind, Except.bind, treeBelow, List.lookup_cons_self]
  have hplain : Json.Plain (.record [("repositories", .array [])]) := by
    refine .record fun m hm => ?_
    rw [List.mem_singleton.mp hm]
    exact .array (List.forall_mem_nil _)
  have hentries : (Json.ofString? (Json.record [("repositories", .array [])]).compact).bind
      StackConfig.ofJson? = some [] := by
    rw [Json.ofString?_compact hplain]
    rfl
  rw [StackConfig.load_text hread hentries]
  decide

theorem places_entries_below :
    ∃ home, treeBelow.home "conf/stack.json" = .ok home ∧ home ≠ treeBelow.current ∧
      RepositoryEntry.parse "x=index.json:3" = .ok ⟨some "x", "index.json", some 3⟩ ∧
      ¬Agrees treeBelow "conf/stack.json" [⟨some "x", "index.json", some 3⟩] := by
  have hparse : RepositoryEntry.parse "x=index.json:3" =
      .ok ⟨some "x", "index.json", some 3⟩ := by decide
  have hentries : ∀ e ∈ [(⟨some "x", "index.json", some 3⟩ : RepositoryEntry)],
      ∃ text, RepositoryEntry.parse text = .ok e :=
    fun e he => ⟨_, List.mem_singleton.mp he ▸ hparse⟩
  obtain ⟨home, hhome, -, -, -, hagrees⟩ := places_entries load_treeBelow hentries
  have hdirectory : treeBelow.home "conf/stack.json" = .ok ["conf".toList] := by decide
  obtain rfl := Except.ok.inj (hhome.symm.trans hdirectory)
  have hname : FileTree.IsFileName "index.json" := by
    simp only [FileTree.IsFileName]
    decide
  refine ⟨_, hhome, by decide, hparse, fun h => ?_⟩
  cases hagrees h _ (List.mem_singleton_self _) hname (by decide)

/-- The index is found by its name without the stack file, and not with it. -/
theorem read_index_below :
    StackConfig.load treeBelow.read "conf/stack.json" = .ok ⟨[], some "conf"⟩ ∧
      RepositoryEntry.parse "index.json" = .ok ⟨none, "index.json", none⟩ ∧
      indexPaths treeBelow.read ⟨none, [⟨none, "index.json", none⟩]⟩ = ["index.json"] ∧
      treeBelow.read "index.json" = .ok (RepositoryIndex.mk "x" []).toJson.compact.toUTF8 ∧
      indexPaths treeBelow.read ⟨some "conf/stack.json", [⟨none, "index.json", none⟩]⟩ =
        ["conf/index.json"] ∧
      treeBelow.read "conf/index.json" = .error .notFound := by
  have hindex : treeBelow.locate "index.json" = .ok ["index.json".toList] := by decide
  have hbelow : treeBelow.locate "conf/index.json" =
      .ok ["conf".toList, "index.json".toList] := by decide
  refine ⟨load_treeBelow, by decide, by decide, ?_, ?_, ?_⟩
  · rw [FileTree.read, hindex]
    have hother : (["index.json".toList] == ["conf".toList, "stack.json".toList]) = false := by
      decide
    simp only [bind, Except.bind, treeBelow, List.lookup_cons, hother, beq_self_eq_true]
  · rw [indexPaths, configuration]
    simp only [load_treeBelow]
    decide
  · have hmissing : (treeBelow.files.lookup ["conf".toList, "index.json".toList]).isNone := by
      decide
    rw [FileTree.read, hbelow]
    simp only [bind, Except.bind, Option.isNone_iff_eq_none.mp hmissing]
    decide

end Stacking

end CommandLine

end PackageAlgebra
