import Mathlib.Data.List.Nodup
import PackageAlgebra.Proofs.Query.AttributePath

/-!
# What a keyword may mean

In a path a point stands where the keyword has the underscore behind the
namespace, so no two namespaces give one path, and none gives the keyword
itself: each meaning is listed once. Longer namespaces come first, and with them
those that lie inside of others.
-/

namespace PackageAlgebra.AttributePath

variable {name : String} {namespaces : List String}

/-- The keyword begins with the namespace, its points read as underscores, and an underscore; the
path is what follows, below the namespace. -/
def IsReading (name space path : String) : Prop :=
  ∃ rest : List Char, rest ≠ [] ∧ name.toList = flattened space ++ '_' :: rest ∧
    path = space ++ "." ++ String.ofList rest

@[simp] theorem length_flattened (space : String) :
    (flattened space).length = space.toList.length :=
  List.length_map _

theorem flattened_append (space parts : String) :
    flattened (space ++ "." ++ parts) = flattened space ++ '_' :: flattened parts := by
  simp [flattened, String.toList_append]

theorem flattened_append_ne (space : String) (rest rest' : List Char) :
    flattened space ++ '_' :: rest ≠ space.toList ++ '.' :: rest' := by
  intro h
  cases List.append_inj_right h (length_flattened space)

theorem IsReading.ne_name {space path : String} (h : IsReading name space path) : path ≠ name := by
  obtain ⟨rest, -, hname, rfl⟩ := h
  intro heq
  rw [← heq] at hname
  exact flattened_append_ne space rest rest (by simpa [String.toList_append] using hname.symm)

/-- A reading of a keyword is not one below a namespace further inside. -/
theorem IsReading.not_inside {space parts path : String} (h : IsReading name space path) :
    ¬IsReading name (space ++ "." ++ parts) path := by
  rintro ⟨rest', -, hname', hpath'⟩
  obtain ⟨rest, -, hname, rfl⟩ := h
  -- the rest behind the outer namespace holds the parts of the inner one in both spellings
  have hspelled : rest = flattened parts ++ '_' :: rest' := by
    rw [hname, flattened_append, List.append_assoc, List.append_cancel_left_eq] at hname'
    exact (List.cons.inj hname').2
  have hdotted : rest = parts.toList ++ '.' :: rest' := by
    have hchars := congrArg String.toList hpath'
    simpa [String.toList_append] using hchars
  exact flattened_append_ne parts rest' rest' (hspelled.symm.trans hdotted)

theorem eq_or_inside {space space' : String} {cs rest rest' : List Char}
    (hspace : space'.toList = space.toList ++ cs) (hrest : '.' :: rest = cs ++ '.' :: rest') :
    space = space' ∨ ∃ parts, space' = space ++ "." ++ parts := by
  cases cs with
  | nil => exact .inl (String.toList_inj.mp (by simpa using hspace.symm))
  | cons c cs =>
    obtain ⟨rfl, -⟩ := List.cons.inj hrest
    refine .inr ⟨String.ofList cs, String.toList_inj.mp ?_⟩
    simpa [String.toList_append] using hspace

/-- No two namespaces give one path. -/
theorem IsReading.unique {space space' path : String} (h : IsReading name space path)
    (h' : IsReading name space' path) : space = space' := by
  obtain ⟨rest, -, -, hpath⟩ := id h
  obtain ⟨rest', -, -, hpath'⟩ := id h'
  have hchars : space.toList ++ '.' :: rest = space'.toList ++ '.' :: rest' := by
    have hchars := congrArg String.toList (hpath.symm.trans hpath')
    simpa [String.toList_append] using hchars
  rcases List.append_eq_append_iff.mp hchars with ⟨cs, hspace, hrest⟩ | ⟨cs, hspace, hrest⟩
  · rcases eq_or_inside hspace hrest with heq | ⟨parts, rfl⟩
    · exact heq
    · exact absurd h' h.not_inside
  · rcases eq_or_inside hspace hrest with heq | ⟨parts, rfl⟩
    · exact heq.symm
    · exact absurd h h'.not_inside

theorem isLonger_trans (a b c : String) (hab : decide (b.utf8ByteSize ≤ a.utf8ByteSize) = true)
    (hbc : decide (c.utf8ByteSize ≤ b.utf8ByteSize) = true) :
    decide (c.utf8ByteSize ≤ a.utf8ByteSize) = true :=
  decide_eq_true (Nat.le_trans (of_decide_eq_true hbc) (of_decide_eq_true hab))

theorem isLonger_total (a b : String) : (decide (b.utf8ByteSize ≤ a.utf8ByteSize) ||
    decide (a.utf8ByteSize ≤ b.utf8ByteSize)) = true := by
  simpa using Nat.le_total b.utf8ByteSize a.utf8ByteSize

theorem longer_first {a b : String} (ha : a ∈ namespaces) (hb : b ∈ namespaces)
    (h : b.utf8ByteSize < a.utf8ByteSize) : [a, b].Sublist (deepestFirst namespaces) := by
  have hsorted : (deepestFirst namespaces).Pairwise fun a b => b.utf8ByteSize ≤ a.utf8ByteSize := by
    simpa [deepestFirst] using List.pairwise_mergeSort isLonger_trans isLonger_total namespaces
  have ha : a ∈ deepestFirst namespaces := List.mem_mergeSort.mpr ha
  have hb : b ∈ deepestFirst namespaces := List.mem_mergeSort.mpr hb
  obtain ⟨before, behind, hspaces⟩ := List.append_of_mem ha
  rw [hspaces] at hsorted hb ⊢
  rcases List.mem_append.mp hb with hb | hb
  · have hle := (List.pairwise_append.mp hsorted).2.2 b hb a List.mem_cons_self
    omega
  · rcases List.mem_cons.mp hb with rfl | hb
    · omega
    · exact ((List.singleton_sublist.mpr hb).cons_cons a).trans (List.sublist_append_right _ _)

theorem sublist_filterMap_reading {a b pa pb : String}
    (h : [a, b].Sublist (deepestFirst namespaces)) (ha : IsReading name a pa)
    (hb : IsReading name b pb) :
    [pa, pb].Sublist ((deepestFirst namespaces).filterMap (reading? name)) := by
  have hpaths := h.filterMap (reading? name)
  rwa [List.filterMap_cons_some (reading?_eq_some_iff.mpr ha),
    List.filterMap_cons_some (reading?_eq_some_iff.mpr hb), List.filterMap_nil] at hpaths

/-- The paths are those that the keyword may mean below one of the namespaces. -/
structure Listed (name : String) (namespaces paths : List String) : Prop where
  nodup : (name :: paths).Nodup
  mem_iff : ∀ {path}, path ∈ paths ↔ ∃ space ∈ namespaces, IsReading name space path
  apart : ∀ {space space' path}, IsReading name space path → IsReading name space' path →
    space = space'
  /-- Longer namespaces come first, and namespaces as long as each other as they are declared. -/
  in_order : ∀ {a b path path'}, a ∈ namespaces → b ∈ namespaces →
    b.utf8ByteSize < a.utf8ByteSize ∨
      b.utf8ByteSize = a.utf8ByteSize ∧ [a, b].Sublist namespaces →
    IsReading name a path → IsReading name b path' → [path, path'].Sublist paths
  /-- A namespace that lies inside of another one comes before it. -/
  inner_first : ∀ {space parts outer inner}, space ∈ namespaces →
    space ++ "." ++ parts ∈ namespaces → IsReading name space outer →
    IsReading name (space ++ "." ++ parts) inner → [inner, outer].Sublist paths

/-- First comes the keyword as it is spelled, and behind it each path below one of the namespaces,
inner namespaces before outer ones. -/
theorem candidates_listed (name : String) {namespaces : List String} (h : namespaces.Nodup) :
    ∃ paths, candidates name namespaces = name :: paths ∧ Listed name namespaces paths := by
  refine ⟨(deepestFirst namespaces).filterMap (reading? name), rfl, ?_⟩
  have hmem : ∀ {path}, path ∈ (deepestFirst namespaces).filterMap (reading? name) ↔
      ∃ space ∈ namespaces, IsReading name space path := by
    simp [deepestFirst, reading?_eq_some_iff, IsReading]
  refine ⟨List.nodup_cons.mpr ⟨?_, ?_⟩, hmem, IsReading.unique, ?_, ?_⟩
  · intro hname
    obtain ⟨space, -, hread⟩ := hmem.mp hname
    exact hread.ne_name rfl
  · have hnodup : (deepestFirst namespaces).Nodup := (List.mergeSort_perm _ _).nodup_iff.mpr h
    refine hnodup.filterMap fun space space' path hread hread' => ?_
    exact IsReading.unique (reading?_eq_some_iff.mp hread) (reading?_eq_some_iff.mp hread')
  · rintro a b path path' ha hb (hlonger | ⟨hsize, hdeclared⟩) hread hread'
    · exact sublist_filterMap_reading (longer_first ha hb hlonger) hread hread'
    · have hkept := List.pair_sublist_mergeSort isLonger_trans isLonger_total
        (decide_eq_true (Nat.le_of_eq hsize)) hdeclared
      exact sublist_filterMap_reading hkept hread hread'
  · intro space parts outer inner hspace hinside houter hinner
    have hsize : space.utf8ByteSize < (space ++ "." ++ parts).utf8ByteSize := by
      rw [String.utf8ByteSize_append, String.utf8ByteSize_append]
      have hpoint : ".".utf8ByteSize = 1 := rfl
      omega
    exact sublist_filterMap_reading (longer_first hinside hspace hsize) hinner houter

/-- Two namespaces stand for one text at the front of the keyword, and a third one around them. -/
theorem candidates_listed_nested :
    ["a", "a_b", "a.b"].Nodup ∧
      ∃ paths, candidates "a_b_c" ["a", "a_b", "a.b"] = "a_b_c" :: paths ∧
        Listed "a_b_c" ["a", "a_b", "a.b"] paths ∧ ["a_b.c", "a.b.c"].Sublist paths ∧
        ["a.b.c", "a.b_c"].Sublist paths := by
  have hnodup : ["a", "a_b", "a.b"].Nodup := by decide
  have houter : IsReading "a_b_c" "a" "a.b_c" := ⟨['b', '_', 'c'], by decide, rfl, rfl⟩
  have hplain : IsReading "a_b_c" "a_b" "a_b.c" := ⟨['c'], by decide, rfl, rfl⟩
  have hinner : IsReading "a_b_c" ("a" ++ "." ++ "b") "a.b.c" := ⟨['c'], by decide, rfl, rfl⟩
  have hsize : "a.b".utf8ByteSize = "a_b".utf8ByteSize := rfl
  have hdeclared : ["a_b", "a.b"].Sublist ["a", "a_b", "a.b"] := by decide
  obtain ⟨paths, hpaths, hlisted⟩ := candidates_listed "a_b_c" hnodup
  exact ⟨hnodup, paths, hpaths, hlisted,
    hlisted.in_order (by decide) (by decide) (.inr ⟨hsize, hdeclared⟩) hplain hinner,
    hlisted.inner_first (by decide) (by decide) houter hinner⟩

end PackageAlgebra.AttributePath
