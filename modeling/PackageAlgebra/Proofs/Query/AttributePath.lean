import PackageAlgebra.Package.Record.Attributes
import PackageAlgebra.Proofs.Text.Cut
import PackageAlgebra.Query.Filter

/-!
# What a keyword names

On any package a keyword answers from memory, searches and finds, or searches in
vain (`Resolves`). On records it leads to one attribute at most, so it does not
matter which path was found first: whatever a keyword remembers, it answers with
what it names (`Justified.names`).
-/

namespace PackageAlgebra

-- ---------------------------------------------------------------------------
-- Keywords on any packages
-- ---------------------------------------------------------------------------

namespace AttributePath

theorem reading?_eq_some_iff {name space path : String} :
    reading? name space = some path ↔
      ∃ rest : List Char, rest ≠ [] ∧ name.toList = flattened space ++ '_' :: rest ∧
        path = space ++ "." ++ String.ofList rest := by
  rw [reading?]
  constructor
  · intro h
    split at h
    · cases h
    · cases h
    next rest hne hstart =>
      cases h
      exact ⟨rest, hne, by simpa using Text.eq_append_of_isPrefixOf? hstart, rfl⟩
  · rintro ⟨rest, hne, hname, rfl⟩
    have hstart : (flattened space ++ ['_']).isPrefixOf? name.toList = some rest := by
      rw [hname, ← Text.isPrefixOf?_append (flattened space ++ ['_']) rest]
      simp
    cases rest with
    | nil => exact absurd rfl hne
    | cons c rest => rw [hstart]

theorem mem_candidates {name path : String} {namespaces : List String} :
    path ∈ candidates name namespaces ↔
      path = name ∨ ∃ space ∈ namespaces, reading? name space = some path := by
  simp [candidates, deepestFirst]

variable {P : Type} [Package P]

theorem firstAttribute?_eq_some {p : P} {paths : List String} {path : String} {value : Value}
    (h : firstAttribute? p paths = some (path, value)) :
    path ∈ paths ∧ Package.attribute? p path = some value := by
  obtain ⟨found, hmem, hfound⟩ := List.exists_of_findSome?_eq_some h
  obtain ⟨v, hv, heq⟩ := Option.map_eq_some_iff.mp hfound
  cases heq
  exact ⟨hmem, hv⟩

theorem firstAttribute?_eq_none_iff {p : P} {paths : List String} :
    firstAttribute? p paths = none ↔ ∀ path ∈ paths, Package.attribute? p path = none := by
  simp [firstAttribute?]

/-- The first of the paths that the keyword may mean on the package which the package has. -/
def found? (name : String) (p : P) : Option (String × Value) :=
  firstAttribute? p (candidates name (Package.namespaces p))

theorem found?_eq_some_iff {name found : String} {p : P} {value : Value} :
    found? name p = some (found, value) ↔
      ∃ earlier later, candidates name (Package.namespaces p) = earlier ++ found :: later ∧
        (∀ path ∈ earlier, Package.attribute? p path = none) ∧
        Package.attribute? p found = some value := by
  rw [found?, firstAttribute?, List.findSome?_eq_some_iff]
  simp only [Option.map_eq_some_iff, Option.map_eq_none_iff]
  constructor
  · rintro ⟨earlier, found, later, hpaths, ⟨value, hvalue, heq⟩, hnone⟩
    cases heq
    exact ⟨earlier, later, hpaths, hnone, hvalue⟩
  · rintro ⟨earlier, later, hpaths, hnone, hvalue⟩
    exact ⟨earlier, found, later, hpaths, ⟨value, hvalue, rfl⟩, hnone⟩

/-- What a keyword can do on a package: answer from memory, search and find, or search in vain. -/
inductive Resolves (path : AttributePath) (p : P) : Except Error Value × AttributePath → Prop
  | recalled {found : String} {value : Value} : path.resolved = some found →
      Package.attribute? p found = some value → Resolves path p (.ok value, path)
  | searched {found : String} {value : Value} :
      (∀ old ∈ path.resolved, Package.attribute? p old = none) →
      found? path.name p = some (found, value) →
      Resolves path p (.ok value, { path with resolved := path.resolved.or (some found) })
  | missed : (∀ old ∈ path.resolved, Package.attribute? p old = none) →
      found? path.name p = none →
      Resolves path p (.error (.attributeNotFound path.name (Package.key p)), path)

theorem resolves_resolve (path : AttributePath) (p : P) : Resolves path p (path.resolve p) := by
  rw [resolve]
  split
  next value hvalue =>
    obtain ⟨found, hfound, hvalue⟩ := Option.bind_eq_some_iff.mp hvalue
    exact .recalled hfound hvalue
  next hnone =>
    have hold : ∀ old ∈ path.resolved, Package.attribute? p old = none :=
      Option.bind_eq_none_iff.mp hnone
    split
    next found value hfound => exact .searched hold hfound
    next hfound => exact .missed hold hfound

theorem resolved_resolve (path : AttributePath) (p : P) :
    (path.resolve p).2.resolved = path.resolved.or ((found? path.name p).map (·.1)) := by
  generalize hstep : path.resolve p = step
  cases hstep ▸ resolves_resolve path p with
  | recalled hfound _ => simp [hfound]
  | searched _ hfound => simp [hfound]
  | missed _ hfound => simp [hfound]

/-- Memory can only help: a package without any of the paths fails if the remembered path is none
that it has. -/
theorem result_eq_error_iff {path : AttributePath} {p : P} {e : Error} :
    (path.resolve p).1 = .error e ↔ e = .attributeNotFound path.name (Package.key p) ∧
      found? path.name p = none ∧ ∀ old ∈ path.resolved, Package.attribute? p old = none := by
  generalize hstep : path.resolve p = step
  cases hstep ▸ resolves_resolve path p with
  | recalled hfound hvalue => simp [hfound, hvalue]
  | searched _ hfound => simp [hfound]
  | missed hold hfound =>
    constructor
    · rintro ⟨⟩
      exact ⟨rfl, hfound, hold⟩
    · rintro ⟨rfl, -, -⟩
      rfl

/-- What is answered is an attribute of the package, at the path that is remembered or at one that
the package itself lets the keyword mean. -/
theorem attribute?_of_result {path : AttributePath} {p : P} {value : Value}
    (h : (path.resolve p).1 = .ok value) :
    ∃ found, Package.attribute? p found = some value ∧
      (found ∈ path.resolved ∨ found ∈ candidates path.name (Package.namespaces p)) := by
  generalize hstep : path.resolve p = step at h
  cases hstep ▸ resolves_resolve path p with
  | @recalled found _ hfound hvalue =>
    cases h
    exact ⟨found, hvalue, .inl hfound⟩
  | @searched found _ _ hfound =>
    cases h
    obtain ⟨hmem, hvalue⟩ := firstAttribute?_eq_some hfound
    exact ⟨found, hvalue, .inr hmem⟩
  | missed => cases h

theorem resolve_ofName_of_found {name found : String} {p : P} {value : Value}
    (h : found? name p = some (found, value)) :
    (ofName name).resolve p = (.ok value, ⟨name, some found⟩) := by
  rw [found?] at h
  simp only [resolve, ofName, Option.bind_none, h]
  rfl

theorem resolve_ofName_of_missing {name : String} {p : P} (h : found? name p = none) :
    (ofName name).resolve p = (.error (.attributeNotFound name (Package.key p)), ofName name) := by
  rw [found?] at h
  simp only [resolve, ofName, Option.bind_none, h]

theorem resolve_of_unknown {p : P} {name : String} (hname : Package.attribute? p name = none)
    (hspace : ∀ space ∈ Package.namespaces p, reading? name space = none) :
    resolve (.ofName name) p =
      (.error (.attributeNotFound name (Package.key p)), .ofName name) := by
  refine resolve_ofName_of_missing (firstAttribute?_eq_none_iff.mpr fun path hpath => ?_)
  rcases mem_candidates.mp hpath with rfl | ⟨space, hmem, hread⟩
  · exact hname
  · rw [hspace space hmem] at hread
    cases hread

@[simp] theorem name_resolve (path : AttributePath) (p : P) :
    (path.resolve p).2.name = path.name := by
  generalize hstep : path.resolve p = step
  cases hstep ▸ resolves_resolve path p <;> rfl

/-- The answers of one keyword that is asked about packages one after another. -/
def answers (path : AttributePath) : List P → List (Except Error Value)
  | [] => []
  | p :: ps => (path.resolve p).1 :: (path.resolve p).2.answers ps

end AttributePath

-- ---------------------------------------------------------------------------
-- Keywords on records
-- ---------------------------------------------------------------------------

namespace PackageRecord

open AttributePath (candidates mem_candidates reading?_eq_some_iff)

def fixedPaths : List String :=
  Identity.attributes.map (·.1) ++ attributes.map (·.1)

theorem not_mem_fixedPaths {mark rest : List Char} {path : String}
    (h : ∀ path ∈ fixedPaths, mark.isPrefixOf? path.toList = none)
    (hpath : path.toList = mark ++ rest) : path ∉ fixedPaths := by
  intro hmem
  have hnone := h path hmem
  rw [hpath, Text.isPrefixOf?_append] at hnone
  cases hnone

theorem attribute?_of_not_mem_fixedPaths {path : String} (h : path ∉ fixedPaths)
    (r : PackageRecord) :
    r.attribute? path = (variableOf? path).bind fun name => (r.metadata.get? name).map .text := by
  rw [fixedPaths, List.mem_append, not_or] at h
  have hlookup : ∀ {α : Type} {l : List (String × α)}, path ∉ l.map (·.1) →
      l.lookup path = none := by
    intro α l hl
    rw [List.lookup_eq_none_iff]
    intro entry hentry
    have hne : path ≠ entry.1 := fun heq => hl (List.mem_map.mpr ⟨entry, hentry, heq.symm⟩)
    simpa using hne
  rw [attribute?, Identity.attribute?, hlookup h.1, hlookup h.2]
  rfl

theorem attribute?_metadata (r : PackageRecord) (name : String) :
    r.attribute? ("metadata." ++ name) = (r.metadata.get? name).map .text := by
  have hfixed : ∀ path ∈ fixedPaths, "metadata.".toList.isPrefixOf? path.toList = none := by
    decide +kernel
  have hpath : ("metadata." ++ name).toList = "metadata.".toList ++ name.toList :=
    String.toList_append
  have hvariable : variableOf? ("metadata." ++ name) = some name := by
    rw [variableOf?, hpath, Text.isPrefixOf?_append]
    simp
  rw [attribute?_of_not_mem_fixedPaths (not_mem_fixedPaths hfixed hpath), hvariable]
  rfl

theorem toList_keyword (space rest : String) :
    (space ++ "_" ++ rest).toList = space.toList ++ '_' :: rest.toList := by
  simp [String.toList_append]

theorem attribute?_keyword {space : String} (hspace : space ∈ namespaces) (rest : String)
    (r : PackageRecord) : r.attribute? (space ++ "_" ++ rest) = none := by
  have hfixed : ∀ space ∈ namespaces, ∀ path ∈ fixedPaths,
      (space.toList ++ ['_']).isPrefixOf? path.toList = none := by decide +kernel
  have hpath : (space ++ "_" ++ rest).toList = (space.toList ++ ['_']) ++ rest.toList := by
    rw [toList_keyword]
    simp
  have hvariable : variableOf? (space ++ "_" ++ rest) = none := by
    rw [variableOf?, toList_keyword]
    simp only [namespaces, List.mem_cons, List.not_mem_nil, or_false] at hspace
    rcases hspace with rfl | rfl | rfl | rfl | rfl | rfl | rfl <;> rfl
  rw [attribute?_of_not_mem_fixedPaths (not_mem_fixedPaths (hfixed space hspace) hpath), hvariable]
  rfl

theorem namespace_unique {space space' rest rest' : String} (h : space ∈ namespaces)
    (h' : space' ∈ namespaces) (heq : space ++ "_" ++ rest = space' ++ "_" ++ rest') :
    space = space' ∧ rest = rest' := by
  have hnamespaces : (namespaces.all fun space => space.toList.all (· != '_')) = true := by
    decide
  have hall : ∀ space ∈ namespaces, ∀ c ∈ space.toList, (c != '_') = true := fun space hspace =>
    List.all_eq_true.mp (List.all_eq_true.mp hnamespaces space hspace)
  have hstop : ∀ cs, Text.StopsAt (· != '_') ('_' :: cs) := by simp
  have hchars := congrArg String.toList heq
  rw [toList_keyword, toList_keyword] at hchars
  have hspace := congrArg (List.takeWhile (· != '_')) hchars
  rw [Text.takeWhile_append_of_stopsAt (hall space h) (hstop _),
    Text.takeWhile_append_of_stopsAt (hall space' h') (hstop _)] at hspace
  rw [hspace] at hchars
  exact ⟨String.toList_inj.mp hspace,
    String.toList_inj.mp (List.cons.inj (List.append_cancel_left hchars)).2⟩

/-- What a keyword may mean on a record: the path spelled like it, or the path below the
namespace at its front. -/
theorem mem_candidates_iff {name path : String} :
    path ∈ candidates name namespaces ↔
      path = name ∨ ∃ space ∈ namespaces, ∃ rest ≠ "",
        name = space ++ "_" ++ rest ∧ path = space ++ "." ++ rest := by
  have hflattened : ∀ space ∈ namespaces, AttributePath.flattened space = space.toList := by
    decide +kernel
  rw [mem_candidates]
  refine or_congr_right (exists_congr fun space => and_congr_right fun hspace => ?_)
  rw [reading?_eq_some_iff, hflattened space hspace]
  constructor
  · rintro ⟨rest, hne, hname, rfl⟩
    refine ⟨String.ofList rest, by simpa using hne, ?_, rfl⟩
    rw [← String.toList_inj, toList_keyword, hname, String.toList_ofList]
  · rintro ⟨rest, hne, rfl, rfl⟩
    exact ⟨rest.toList, by simpa using hne, toList_keyword space rest, by simp⟩

/-- What a keyword names on a record: the attribute spelled like the keyword, or else the one
below the namespace at its front. -/
inductive Names (r : PackageRecord) (name : String) : Except Error Value → Prop
  | literal {value : Value} : r.attribute? name = some value → Names r name (.ok value)
  | below {space rest : String} {value : Value} : r.attribute? name = none →
      space ∈ namespaces → rest ≠ "" → name = space ++ "_" ++ rest →
      r.attribute? (space ++ "." ++ rest) = some value → Names r name (.ok value)
  | nothing : r.attribute? name = none →
      (∀ space ∈ namespaces, ∀ rest ≠ "", name = space ++ "_" ++ rest →
        r.attribute? (space ++ "." ++ rest) = none) →
      Names r name (.error (.attributeNotFound name r.key))

theorem names_of_candidate {r : PackageRecord} {name path : String} {value : Value}
    (hmem : path ∈ candidates name namespaces) (h : r.attribute? path = some value) :
    r.Names name (.ok value) := by
  rcases mem_candidates_iff.mp hmem with rfl | ⟨space, hspace, rest, hne, rfl, rfl⟩
  · exact .literal h
  · exact .below (attribute?_keyword hspace rest r) hspace hne rfl h

theorem names_of_candidates_none {r : PackageRecord} {name : String}
    (h : ∀ path ∈ candidates name namespaces, r.attribute? path = none) :
    r.Names name (.error (.attributeNotFound name r.key)) := by
  refine .nothing (h name (mem_candidates_iff.mpr (.inl rfl))) ?_
  intro space hspace rest hne hname
  exact h _ (mem_candidates_iff.mpr (.inr ⟨space, hspace, rest, hne, hname, rfl⟩))

theorem Names.unique {r : PackageRecord} {name : String} {a b : Except Error Value}
    (ha : r.Names name a) (hb : r.Names name b) : a = b := by
  cases ha with
  | literal h =>
    cases hb with
    | literal h' => rw [Option.some.inj (h.symm.trans h')]
    | below hnone => simp [h] at hnone
    | nothing hnone => simp [h] at hnone
  | below hnone hspace hne hname h =>
    cases hb with
    | literal h' => simp [h'] at hnone
    | below _ hspace' _ hname' h' =>
      obtain ⟨rfl, rfl⟩ := namespace_unique hspace hspace' (hname.symm.trans hname')
      rw [Option.some.inj (h.symm.trans h')]
    | nothing _ hall => simp [hall _ hspace _ hne hname] at h
  | nothing hnone hall =>
    cases hb with
    | literal h' => simp [h'] at hnone
    | below _ hspace hne hname h' => simp [hall _ hspace _ hne hname] at h'
    | nothing => rfl

/-- A metadata variable is reached whatever stands in its name, underscores and points too. -/
theorem names_metadata {rest : String} (h : rest ≠ "") (r : PackageRecord) :
    r.Names ("metadata_" ++ rest) (match r.metadata.get? rest with
      | some text => .ok (.text text)
      | none => .error (.attributeNotFound ("metadata_" ++ rest) r.key)) := by
  have hspace : "metadata" ∈ namespaces := by decide
  have hname : "metadata_" ++ rest = "metadata" ++ "_" ++ rest := rfl
  have hpath : "metadata" ++ "." ++ rest = "metadata." ++ rest := rfl
  have hliteral : r.attribute? ("metadata_" ++ rest) = none := attribute?_keyword hspace rest r
  have hvalue := r.attribute?_metadata rest
  cases hget : r.metadata.get? rest with
  | some text => exact .below hliteral hspace h hname (by rw [hpath, hvalue, hget]; rfl)
  | none =>
    refine .nothing hliteral fun space' hspace' rest' _ hname' => ?_
    obtain ⟨rfl, rfl⟩ := namespace_unique hspace hspace' hname'
    rw [hpath, hvalue, hget]
    rfl

end PackageRecord

-- ---------------------------------------------------------------------------
-- What a keyword remembers
-- ---------------------------------------------------------------------------

namespace AttributePath

/-- What the keyword remembers is a path that it may mean on a record. -/
def Justified (path : AttributePath) : Prop :=
  ∀ found ∈ path.resolved, found ∈ candidates path.name PackageRecord.namespaces

theorem justified_ofName (name : String) : (ofName name).Justified := by
  simp [Justified, ofName]

theorem Justified.resolve {path : AttributePath} (h : path.Justified) (r : PackageRecord) :
    (path.resolve r).2.Justified := by
  intro found hfound
  rw [name_resolve]
  rw [resolved_resolve, Option.mem_def, Option.or_eq_some_iff] at hfound
  rcases hfound with hresolved | ⟨-, hfound⟩
  · exact h found hresolved
  · obtain ⟨⟨_, value⟩, hfirst, rfl⟩ := Option.map_eq_some_iff.mp hfound
    exact (firstAttribute?_eq_some hfirst).1

/-- Whatever a keyword remembers, it answers with what it names. -/
theorem Justified.names {path : AttributePath} (h : path.Justified) (r : PackageRecord) :
    r.Names path.name (path.resolve r).1 := by
  cases hresult : (path.resolve r).1 with
  | ok value =>
    obtain ⟨found, hvalue, hresolved | hmem⟩ := attribute?_of_result hresult
    · exact PackageRecord.names_of_candidate (h found hresolved) hvalue
    · exact PackageRecord.names_of_candidate hmem hvalue
  | error e =>
    obtain ⟨rfl, hmissing, -⟩ := result_eq_error_iff.mp hresult
    exact PackageRecord.names_of_candidates_none (firstAttribute?_eq_none_iff.mp hmissing)

theorem result_resolve_ofName_iff (name : String) (r : PackageRecord) (a : Except Error Value) :
    ((ofName name).resolve r).1 = a ↔ r.Names name a := by
  have hnames := (justified_ofName name).names r
  constructor
  · rintro rfl
    exact hnames
  · exact hnames.unique

theorem Justified.resolve_eq {path : AttributePath} (h : path.Justified) (r : PackageRecord) :
    (path.resolve r).1 = ((ofName path.name).resolve r).1 :=
  (h.names r).unique ((justified_ofName path.name).names r)

theorem Justified.answers {path : AttributePath} (h : path.Justified) (rs : List PackageRecord) :
    path.answers rs = rs.map fun r => ((ofName path.name).resolve r).1 := by
  induction rs generalizing path with
  | nil => rfl
  | cons r rs ih =>
    rw [AttributePath.answers, List.map_cons, h.resolve_eq, ih (h.resolve r), name_resolve]

end AttributePath

end PackageAlgebra
