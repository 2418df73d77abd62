import PackageAlgebra.Files
import PackageAlgebra.Proofs.Text.Cut

/-!
# Files that are written, and paths that are joined

A write changes no directory, so a path leads to the same place after it as
before. A path that is joined to the directory of a file leads where it leads
from that directory, if the file is there.
-/

namespace PackageAlgebra.FileTree

-- ---------------------------------------------------------------------------
-- What is written can be read
-- ---------------------------------------------------------------------------

variable {tree tree' : FileTree} {location start place : Location} {bytes : ByteArray}

theorem isDirectory_insert (h : tree.isDirectory start = true) :
    (tree.insert location bytes).isDirectory start = true := by
  rw [isDirectory, Bool.or_eq_true, List.any_eq_true] at h ⊢
  rcases h with hcurrent | ⟨file, hfile, hbelow⟩
  · exact .inl hcurrent
  · by_cases hsame : file.1 = location
    · exact .inr ⟨(location, bytes), List.mem_cons_self, hsame ▸ hbelow⟩
    · exact .inr ⟨file, List.mem_cons_of_mem _ (by simp [hfile, hsame]), hbelow⟩

theorem follow_insert {names : Location} (h : tree.follow start names = .ok place) :
    (tree.insert location bytes).follow start names = .ok place := by
  induction names generalizing start with
  | nil => exact h
  | cons name rest ih =>
    rw [follow] at h ⊢
    cases henter : enter start name with
    | error e => rw [henter] at h; cases h
    | ok next =>
      rw [henter] at h
      change (if _ then _ else _) = _ at h
      change (if _ then _ else _) = _
      split at h
      next hway =>
        rw [Bool.or_eq_true] at hway
        rw [if_pos (Bool.or_eq_true_iff.mpr (hway.imp_right isDirectory_insert))]
        exact ih h
      next => split at h <;> cases h

theorem locate_insert {path : String} (h : tree.locate path = .ok place) :
    (tree.insert location bytes).locate path = .ok place := by
  rw [locate] at h ⊢
  split at h
  · cases h
  next hempty =>
    split at h
    · cases h
    next hnul =>
      split at h
      · cases h
      next hlong =>
        rw [if_neg hempty, if_neg hnul, if_neg hlong]
        exact follow_insert h

/-- The path leads to a place where a file can be. -/
def Writable (tree : FileTree) (path : String) : Prop :=
  ∃ bytes tree', tree.write path bytes = .ok tree'

theorem write_ok {path : String} (h : tree.write path bytes = .ok tree') :
    ∃ place, tree.locate path = .ok place ∧ tree' = tree.insert place bytes ∧
      ∀ bytes', tree.write path bytes' = .ok (tree.insert place bytes') := by
  rw [write] at h
  cases hplace : tree.locate path with
  | error e => rw [hplace] at h; cases h
  | ok place =>
    rw [hplace] at h
    change (if _ then _ else _) = _ at h
    split at h
    · cases h
    next hfree =>
      cases h
      refine ⟨place, rfl, rfl, fun bytes' => ?_⟩
      rw [write, hplace]
      exact if_neg hfree

theorem Writable.write_ok {path : String} (h : tree.Writable path) (bytes : ByteArray) :
    ∃ tree', tree.write path bytes = .ok tree' := by
  obtain ⟨_, _, h⟩ := h
  obtain ⟨place, -, -, hwrite⟩ := FileTree.write_ok h
  exact ⟨_, hwrite bytes⟩

theorem read_write {path : String} (h : tree.write path bytes = .ok tree') :
    tree'.read path = .ok bytes := by
  obtain ⟨place, hplace, rfl, -⟩ := write_ok h
  have hfile : (tree.insert place bytes).files.lookup place = some bytes := List.lookup_cons_self
  rw [read, locate_insert hplace]
  simp only [bind, Except.bind, hfile]

end PackageAlgebra.FileTree

namespace PackageAlgebra

-- ---------------------------------------------------------------------------
-- Names on a joined path
-- ---------------------------------------------------------------------------

namespace Path

theorem splitOn_append_slash (front behind : List Char) :
    (front ++ '/' :: behind).splitOn '/' = front.splitOn '/' ++ behind.splitOn '/' :=
  List.splitOnP_append_cons front behind rfl

theorem splitOn_of_not_mem {cs : List Char} (h : '/' ∉ cs) : cs.splitOn '/' = [cs] :=
  List.splitOn_eq_singleton h

theorem isAbsolute_of_not_mem {path : String} (h : '/' ∉ path.toList) :
    isAbsolute path = false := by
  rw [isAbsolute, beq_eq_false_iff_ne]
  exact fun hhead => h (List.mem_of_head? hhead)

theorem join_of_isAbsolute {path : String} (h : isAbsolute path = true) (directory : String) :
    join directory path = path := by
  rw [join, h, Bool.true_or, if_pos rfl]

theorem join_empty (path : String) : join "" path = path := by
  rw [join, if_pos (by simp)]

theorem size_le_join (directory path : String) :
    path.utf8ByteSize ≤ (join directory path).utf8ByteSize := by
  rw [join]
  split
  · exact Nat.le_refl _
  · split <;> simp only [String.utf8ByteSize_append] <;> omega

theorem toList_join {directory path : String} (h : isAbsolute path = false)
    (hdirectory : directory.toList ≠ []) :
    (join directory path).toList =
      if directory.toList.getLast? = some '/' then directory.toList ++ path.toList
      else directory.toList ++ '/' :: path.toList := by
  have hempty : directory.isEmpty = false := by simpa using hdirectory
  rw [join, h, hempty, Bool.or_self, if_neg Bool.false_ne_true]
  split <;> simp

/-- A relative path goes behind the last slash of the path whose directory it is joined to; of two
slashes there one goes. -/
theorem join_directory {path : String} (file : String) (h : isAbsolute path = false) :
    ('/' ∉ file.toList ∧ join (directory file) path = path) ∨
      ∃ front extra rest, (extra = [] ∨ extra = ['/']) ∧ '/' ∉ rest ∧
        file.toList = front ++ extra ++ '/' :: rest ∧
        (join (directory file) path).toList = front ++ '/' :: path.toList := by
  cases hcut : Text.cutLast? '/' file.toList with
  | none =>
    refine .inl ⟨Text.not_mem_of_cutLast? hcut, ?_⟩
    rw [directory, hcut]
    exact join_empty path
  | some parts =>
    obtain ⟨before, rest⟩ := parts
    obtain ⟨hfile, hrest⟩ := Text.join_of_cutLast? hcut
    refine .inr ?_
    cases before with
    | nil =>
      have hdirectory : directory file = "/" := by rw [directory, hcut]
      refine ⟨[], [], rest, .inl rfl, hrest, hfile, ?_⟩
      rw [hdirectory, toList_join h (by simp)]
      rfl
    | cons c cs =>
      have hdirectory : (directory file).toList = c :: cs := by
        rw [directory, hcut, String.toList_ofList]
      rw [toList_join h (by simp [hdirectory]), hdirectory]
      split
      next hlast =>
        obtain ⟨front, hfront⟩ := List.getLast?_eq_some_iff.mp hlast
        refine ⟨front, ['/'], rest, .inr rfl, hrest, by rw [hfile, hfront], ?_⟩
        rw [hfront, List.append_assoc]
        rfl
      next => exact ⟨c :: cs, [], rest, .inl rfl, hrest, by rw [hfile, List.append_nil], rfl⟩

theorem names_of_slash {path : String} {front extra rest : List Char}
    (hextra : extra = [] ∨ extra = ['/']) (hrest : '/' ∉ rest)
    (hpath : path.toList = front ++ extra ++ '/' :: rest) :
    ∃ blank : List (List Char), (blank = [] ∨ blank = [[]]) ∧
      names path = front.splitOn '/' ++ (blank ++ [rest]) := by
  rw [names, hpath]
  rcases hextra with rfl | rfl
  · refine ⟨[], .inl rfl, ?_⟩
    rw [List.append_nil, splitOn_append_slash, splitOn_of_not_mem hrest]
    rfl
  · refine ⟨[[]], .inr rfl, ?_⟩
    rw [List.append_assoc, List.singleton_append, splitOn_append_slash,
      ← List.nil_append ('/' :: rest), splitOn_append_slash, splitOn_of_not_mem hrest]
    rfl

end Path

-- ---------------------------------------------------------------------------
-- Places on the way
-- ---------------------------------------------------------------------------

namespace FileTree

variable {tree : FileTree} {start place directory : Location}

theorem isDirectory_nil : tree.isDirectory [] = true := by
  rw [isDirectory, List.isPrefixOf_nil_left, Bool.true_or]

theorem isDirectory_current : tree.isDirectory tree.current = true := by
  rw [isDirectory, List.isPrefixOf_iff_prefix.mpr (List.prefix_refl _), Bool.true_or]

theorem follow_cons {name : List Char} {next : Location} (h : enter start name = .ok next)
    (rest : Location) :
    tree.follow start (name :: rest) =
      if rest.isEmpty || tree.isDirectory next then tree.follow next rest
      else if (tree.files.lookup next).isSome then .error .notDirectory
      else .error .notFound := by
  rw [follow, h]
  rfl

theorem follow_cons_ok {name : List Char} {rest : Location}
    (h : tree.follow start (name :: rest) = .ok place) :
    ∃ next, enter start name = .ok next ∧ (rest ≠ [] → tree.isDirectory next = true) ∧
      tree.follow next rest = .ok place := by
  cases henter : enter start name with
  | error e =>
    rw [follow, henter] at h
    cases h
  | ok next =>
    rw [follow_cons henter] at h
    split at h
    next hway =>
      rw [Bool.or_eq_true, List.isEmpty_iff] at hway
      exact ⟨next, rfl, hway.resolve_left, h⟩
    next => split at h <;> cases h

/-- Names can be followed in two parts if the first part leads to a directory. -/
theorem follow_append {before : Location} (h : tree.follow start before = .ok directory)
    (hdirectory : tree.isDirectory directory = true) (behind : Location) :
    tree.follow start (before ++ behind) = tree.follow directory behind := by
  induction before generalizing start with
  | nil =>
    cases h
    rfl
  | cons name rest ih =>
    obtain ⟨next, henter, hway, hrest⟩ := follow_cons_ok h
    have hnext : tree.isDirectory next = true := by
      cases rest with
      | nil =>
        cases hrest
        exact hdirectory
      | cons _ _ => exact hway (List.cons_ne_nil _ _)
    rw [List.cons_append, follow_cons henter, hnext, Bool.or_true, if_pos rfl, ih hrest]

theorem exists_directory {before behind : Location} (hbehind : behind ≠ [])
    (hstart : tree.isDirectory start = true)
    (h : tree.follow start (before ++ behind) = .ok place) :
    ∃ directory, tree.follow start before = .ok directory ∧ tree.isDirectory directory = true := by
  induction before generalizing start with
  | nil => exact ⟨start, rfl, hstart⟩
  | cons name rest ih =>
    obtain ⟨next, henter, hway, hrest⟩ := follow_cons_ok h
    have hnext : tree.isDirectory next = true :=
      hway (List.append_ne_nil_of_right_ne_nil _ hbehind)
    obtain ⟨directory, hfollow, hdirectory⟩ := ih hnext hrest
    refine ⟨directory, ?_, hdirectory⟩
    rw [follow_cons henter, hnext, Bool.or_true, if_pos rfl, hfollow]

def origin (tree : FileTree) (path : String) : Location :=
  if Path.isAbsolute path then [] else tree.current

def home (tree : FileTree) (path : String) : Except FileError Location :=
  tree.follow (tree.origin path) (Path.names path).dropLast

theorem isDirectory_origin (path : String) : tree.isDirectory (tree.origin path) = true := by
  rw [origin]
  split
  · exact isDirectory_nil
  · exact isDirectory_current

theorem locate_eq {path : String} (h : path ≠ "") :
    tree.locate path =
      if '\x00' ∈ path.toList then .error .invalidName
      else if maxPath < path.utf8ByteSize then .error .nameTooLong
      else tree.follow (tree.origin path) (Path.names path) := by
  rw [locate, if_neg (by simpa using h)]
  simp only [List.contains_iff_mem]
  rfl

theorem follow_of_read {path : String} {bytes : ByteArray} (h : tree.read path = .ok bytes) :
    '\x00' ∉ path.toList ∧
      ∃ place, tree.follow (tree.origin path) (Path.names path) = .ok place := by
  cases hplace : tree.locate path with
  | error e =>
    rw [read, hplace] at h
    cases h
  | ok place =>
    have hne : path ≠ "" := by
      rintro rfl
      cases hplace
    rw [locate_eq hne] at hplace
    split at hplace
    · cases hplace
    next hnul =>
      split at hplace
      · cases hplace
      · exact ⟨hnul, place, hplace⟩

theorem origin_of_isAbsolute_eq {path path' : String}
    (h : Path.isAbsolute path = Path.isAbsolute path') : tree.origin path = tree.origin path' := by
  rw [origin, h, origin]

theorem origin_of_relative {path : String} (h : Path.isAbsolute path = false) :
    tree.origin path = tree.current := by
  rw [origin, h, if_neg Bool.false_ne_true]

theorem follow_append_empty {before : Location}
    (h : tree.follow start before = .ok directory)
    (hdirectory : tree.isDirectory directory = true) :
    tree.follow start (before ++ [[]]) = .ok directory := by
  rw [follow_append h hdirectory]
  rfl

/-- A relative path that is joined to the directory of a file is followed from there. -/
theorem follow_join {file path : String} {bytes : ByteArray} (hread : tree.read file = .ok bytes)
    (hpath : Path.isAbsolute path = false) :
    ∃ directory, tree.home file = .ok directory ∧
      tree.follow (tree.origin (Path.join (Path.directory file) path))
          (Path.names (Path.join (Path.directory file) path)) =
        tree.follow directory (Path.names path) := by
  obtain ⟨-, place, hplace⟩ := follow_of_read hread
  rcases Path.join_directory file hpath with
    ⟨hslash, hjoin⟩ | ⟨front, extra, rest, hextra, hrest, hfile, hjoin⟩
  · have hfile : Path.isAbsolute file = false := Path.isAbsolute_of_not_mem hslash
    refine ⟨tree.current, ?_, ?_⟩
    · rw [home, Path.names, Path.splitOn_of_not_mem hslash, origin_of_relative hfile]
      rfl
    · rw [hjoin, origin_of_relative hpath]
  · have horigin : tree.origin (Path.join (Path.directory file) path) = tree.origin file := by
      apply origin_of_isAbsolute_eq
      rw [Path.isAbsolute, Path.isAbsolute, hjoin, hfile]
      rcases hextra with rfl | rfl <;> cases front <;> rfl
    obtain ⟨blank, hblank, hnames⟩ := Path.names_of_slash hextra hrest hfile
    rw [hnames] at hplace
    obtain ⟨directory, hfollow, hdirectory⟩ :=
      exists_directory (by simp) (isDirectory_origin file) hplace
    refine ⟨directory, ?_, ?_⟩
    · rw [home, hnames, ← List.append_assoc, List.dropLast_concat]
      rcases hblank with rfl | rfl
      · rw [List.append_nil, hfollow]
      · exact follow_append_empty hfollow hdirectory
    · rw [horigin, Path.names, hjoin, Path.splitOn_append_slash, follow_append hfollow hdirectory]
      rfl

theorem locate_relative {path : String} (h : path ≠ "") (hpath : Path.isAbsolute path = false) :
    tree.locate path =
      if '\x00' ∈ path.toList then .error .invalidName
      else if maxPath < path.utf8ByteSize then .error .nameTooLong
      else tree.follow tree.current (Path.names path) := by
  rw [locate_eq h, origin_of_relative hpath]

theorem locate_join {file path : String} {bytes : ByteArray} (hread : tree.read file = .ok bytes)
    (h : path ≠ "") (hpath : Path.isAbsolute path = false) :
    ∃ directory, tree.home file = .ok directory ∧
      tree.locate (Path.join (Path.directory file) path) =
        if '\x00' ∈ path.toList then .error .invalidName
        else if maxPath < (Path.join (Path.directory file) path).utf8ByteSize then
          .error .nameTooLong
        else tree.follow directory (Path.names path) := by
  obtain ⟨directory, hhome, hfollow⟩ := follow_join hread hpath
  obtain ⟨hnul, -⟩ := follow_of_read hread
  refine ⟨directory, hhome, ?_⟩
  have hmem : '\x00' ∈ (Path.join (Path.directory file) path).toList ↔ '\x00' ∈ path.toList := by
    rcases Path.join_directory file hpath with ⟨-, hjoin⟩ | ⟨front, _, _, -, -, hfile, hjoin⟩
    · rw [hjoin]
    · rw [hfile] at hnul
      rw [hjoin]
      simp only [List.mem_append, List.mem_cons, not_or] at hnul ⊢
      simp [hnul]
  have hne : Path.join (Path.directory file) path ≠ "" := by
    rcases Path.join_directory file hpath with ⟨-, hjoin⟩ | ⟨_, _, _, -, -, -, hjoin⟩
    · rwa [hjoin]
    · intro hempty
      rw [hempty] at hjoin
      simp at hjoin
  simp only [locate_eq hne, hmem, hfollow]

/-- A name that a file in a directory can have. -/
def IsFileName (name : String) : Prop :=
  '/' ∉ name.toList ∧ '\x00' ∉ name.toList ∧ name ≠ "" ∧ name.toList ≠ Path.stay ∧
    name.toList ≠ Path.up ∧ name.utf8ByteSize ≤ maxName

theorem IsFileName.follow {name : String} (h : IsFileName name) (directory : Location) :
    tree.follow directory (Path.names name) = .ok (directory ++ [name.toList]) := by
  obtain ⟨hslash, -, hempty, hstay, hup, hsize⟩ := h
  have henter : enter directory name.toList = .ok (directory ++ [name.toList]) := by
    rw [enter, if_neg (by simp [hempty, hstay]), if_neg hup, String.ofList_toList,
      if_neg (by omega)]
  rw [Path.names, Path.splitOn_of_not_mem hslash, follow_cons henter]
  rfl

end FileTree

end PackageAlgebra
