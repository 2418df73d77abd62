import PackageAlgebra.Proofs.Query.AttributePath

/-!
# What a keyword remembers on any packages

The first package with any of the paths that the keyword may mean there decides
what is remembered, for good. It is only a short cut: it leads to no attribute
that none of the packages declares, and where all declare the same namespaces it
makes no package answer that would not answer without it.
-/

namespace PackageAlgebra.AttributePath

variable {P : Type} [Package P]

/-- The keyword with what it remembers once it was asked about all the packages in turn. -/
def after (path : AttributePath) (ps : List P) : AttributePath :=
  ps.foldl (fun path p => (path.resolve p).2) path

@[simp] theorem after_nil (path : AttributePath) : path.after ([] : List P) = path :=
  rfl

@[simp] theorem after_cons (path : AttributePath) (p : P) (ps : List P) :
    path.after (p :: ps) = (path.resolve p).2.after ps :=
  rfl

theorem after_append (path : AttributePath) (ps qs : List P) :
    path.after (ps ++ qs) = (path.after ps).after qs :=
  List.foldl_append

@[simp] theorem name_after (path : AttributePath) (ps : List P) :
    (path.after ps).name = path.name := by
  induction ps generalizing path with
  | nil => rfl
  | cons p ps ih => rw [after_cons, ih, name_resolve]

/-- A path that is remembered is kept. Else the first package that has any decides. -/
theorem resolved_after (path : AttributePath) (ps : List P) :
    (path.after ps).resolved =
      path.resolved.or ((ps.findSome? (found? path.name)).map (·.1)) := by
  induction ps generalizing path with
  | nil => simp
  | cons p ps ih =>
    rw [after_cons, ih, resolved_resolve, name_resolve, List.findSome?_cons, Option.or_assoc]
    cases found? path.name p <;> simp

theorem resolved_after_of_eq_some {path : AttributePath} {found : String}
    (h : path.resolved = some found) (ps : List P) : (path.after ps).resolved = some found := by
  rw [resolved_after, h, Option.some_or]

variable {name : String}

theorem after_ofName_of_missing {ps : List P} (h : ∀ p ∈ ps, found? name p = none) :
    (ofName name).after ps = ofName name := by
  induction ps with
  | nil => rfl
  | cons p ps ih =>
    rw [after_cons, resolve_ofName_of_missing (h p (by simp))]
    exact ih fun q hq => h q (by simp [hq])

theorem answers_fail_iff {ps : List P} :
    (∀ a ∈ (ofName name).answers ps, ∃ e, a = .error e) ↔ ∀ p ∈ ps, found? name p = none := by
  induction ps with
  | nil => simp [answers]
  | cons p ps ih =>
    rw [answers, List.forall_mem_cons, List.forall_mem_cons]
    cases hfound : found? name p with
    | none => simp [resolve_ofName_of_missing hfound, ih]
    | some found => simp [resolve_ofName_of_found hfound]

theorem resolved_after_ofName_iff {ps : List P} {found : String} :
    ((ofName name).after ps).resolved = some found ↔
      ∃ front q behind value, ps = front ++ q :: behind ∧
        (∀ a ∈ (ofName name).answers front, ∃ e, a = .error e) ∧
        (((ofName name).after front).resolve q).1 = .ok value ∧
        found? name q = some (found, value) := by
  have hresolved : ((ofName name).after ps).resolved =
      (ps.findSome? (found? name)).map (·.1) := resolved_after (ofName name) ps
  rw [hresolved, Option.map_eq_some_iff]
  simp only [answers_fail_iff]
  constructor
  · rintro ⟨⟨_, value⟩, hfirst, rfl⟩
    obtain ⟨front, q, behind, hps, hfound, hfront⟩ := List.findSome?_eq_some_iff.mp hfirst
    refine ⟨front, q, behind, value, hps, hfront, ?_, hfound⟩
    rw [after_ofName_of_missing hfront, resolve_ofName_of_found hfound]
  · rintro ⟨front, q, behind, value, hps, hfront, -, hfound⟩
    exact ⟨_, List.findSome?_eq_some_iff.mpr ⟨front, q, behind, hps, hfound, hfront⟩, rfl⟩

theorem exists_candidate_of_resolved {ps : List P} {found : String}
    (h : ((ofName name).after ps).resolved = some found) :
    ∃ q ∈ ps, found ∈ candidates name (Package.namespaces q) := by
  obtain ⟨front, q, behind, value, rfl, -, -, hfound⟩ := resolved_after_ofName_iff.mp h
  exact ⟨q, by simp, (firstAttribute?_eq_some hfound).1⟩

theorem candidates_subset {spaces spaces' : List String} (h : spaces ⊆ spaces') :
    candidates name spaces ⊆ candidates name spaces' := by
  intro path hpath
  rcases mem_candidates.mp hpath with rfl | ⟨space, hspace, hread⟩
  · exact mem_candidates.mpr (.inl rfl)
  · exact mem_candidates.mpr (.inr ⟨space, h hspace, hread⟩)

/-- If the packages before declare no other namespaces, what is remembered is a path that is
searched for anyway. -/
theorem result_after_eq_error_iff {before : List P} {p : P}
    (h : ∀ q ∈ before, Package.namespaces q ⊆ Package.namespaces p) {e : Error} :
    (((ofName name).after before).resolve p).1 = .error e ↔
      ((ofName name).resolve p).1 = .error e := by
  rw [result_eq_error_iff, result_eq_error_iff, name_after]
  refine and_congr_right fun _ => and_congr_right fun hmissing => ?_
  have hnone := firstAttribute?_eq_none_iff.mp hmissing
  constructor
  · simp [ofName]
  · intro _ old hold
    obtain ⟨q, hq, hmem⟩ := exists_candidate_of_resolved hold
    exact hnone old (candidates_subset (h q hq) hmem)

/-- How a keyword that was asked about the packages `before` stands to the next package. -/
structure Consistent (name : String) (before : List P) (p : P) : Prop where
  /-- What is remembered is kept, whatever packages follow. -/
  kept : ∀ {found}, ((ofName name).after before).resolved = some found → ∀ behind : List P,
    ((ofName name).after (before ++ behind)).resolved = some found
  /-- It is the first path that the first package to be answered for has. -/
  first : ∀ {found}, ((ofName name).after before).resolved = some found ↔
    ∃ front q behind value, before = front ++ q :: behind ∧
      (∀ a ∈ (ofName name).answers front, ∃ e, a = .error e) ∧
      (((ofName name).after front).resolve q).1 = .ok value ∧
      ∃ earlier later, candidates name (Package.namespaces q) = earlier ++ found :: later ∧
        (∀ path ∈ earlier, Package.attribute? q path = none) ∧
        Package.attribute? q found = some value
  /-- An answer is an attribute of the package, at a path that one of the packages declares. -/
  value : ∀ {value}, (((ofName name).after before).resolve p).1 = .ok value →
    ∃ path, Package.attribute? p path = some value ∧
      (path = name ∨ ∃ q ∈ before ++ [p], ∃ space ∈ Package.namespaces q, ∃ rest : List Char,
        rest ≠ [] ∧ name.toList = flattened space ++ '_' :: rest ∧
          path = space ++ "." ++ String.ofList rest)
  /-- The only error is that the package lacks the attribute. -/
  error : ∀ {e}, (((ofName name).after before).resolve p).1 = .error e →
    e = .attributeNotFound name (Package.key p)
  /-- Whether there is one does not depend on the packages before, as far as these declare the same
  namespaces. -/
  fails_iff : (∀ q ∈ before, Package.namespaces q ⊆ Package.namespaces p) → ∀ {e},
    ((((ofName name).after before).resolve p).1 = .error e ↔
      ((ofName name).resolve p).1 = .error e)

theorem consistent (name : String) (before : List P) (p : P) : Consistent name before p where
  kept := by
    intro found h behind
    rw [after_append]
    exact resolved_after_of_eq_some h behind
  first := by
    intro found
    rw [resolved_after_ofName_iff]
    simp only [found?_eq_some_iff]
  value := by
    intro value h
    obtain ⟨path, hvalue, hpath⟩ := attribute?_of_result h
    have hmem : ∃ q ∈ before ++ [p], path ∈ candidates name (Package.namespaces q) := by
      rcases hpath with hresolved | hmem
      · obtain ⟨q, hq, hmem⟩ := exists_candidate_of_resolved hresolved
        exact ⟨q, by simp [hq], hmem⟩
      · rw [name_after] at hmem
        exact ⟨p, by simp, hmem⟩
    obtain ⟨q, hq, hmem⟩ := hmem
    refine ⟨path, hvalue, ?_⟩
    rcases mem_candidates.mp hmem with hname | ⟨space, hspace, hread⟩
    · exact .inl hname
    · exact .inr ⟨q, hq, space, hspace, reading?_eq_some_iff.mp hread⟩
  error := by
    intro e h
    have herror := (result_eq_error_iff.mp h).1
    rwa [name_after] at herror
  fails_iff := by
    intro h e
    exact result_after_eq_error_iff h

/-- The last package would answer at its first path, and answers at the remembered one. Memory may
change what is answered, but not whether anything is. -/
theorem consistent_recalled :
    ∃ lacking nested both : AnyPackage,
      Consistent "x_y" [lacking, nested] both ∧
        ((ofName "x_y").after [lacking, nested, both]).resolved = some "x.y" ∧
        (((ofName "x_y").after [lacking, nested]).resolve both).1 = .ok (.int 3) ∧
        ((ofName "x_y").resolve both).1 = .ok (.int 2) := by
  let i := (PackageRecord.bare ⟨some "a", "b"⟩ ⟨⟨['1'], rfl⟩, [], none, [], 0⟩).identity
  let package (attributes : List (String × Value)) : AnyPackage :=
    ⟨i, fun path => attributes.lookup path, ["x"]⟩
  have hcandidates : candidates "x_y" ["x"] = ["x_y", "x.y"] := by
    rw [candidates, deepestFirst, List.mergeSort_singleton]
    rfl
  have hlacking : found? "x_y" (package []) = none :=
    firstAttribute?_eq_none_iff.mpr fun _ _ => rfl
  have hnested : found? "x_y" (package [("x.y", .int 1)]) = some ("x.y", .int 1) :=
    found?_eq_some_iff.mpr ⟨["x_y"], [], hcandidates, by simp; rfl, rfl⟩
  have hboth : found? "x_y" (package [("x_y", .int 2), ("x.y", .int 3)]) = some ("x_y", .int 2) :=
    found?_eq_some_iff.mpr ⟨[], ["x.y"], hcandidates, by simp, rfl⟩
  have hafter : (ofName "x_y").after [package [], package [("x.y", .int 1)]] =
      ⟨"x_y", some "x.y"⟩ := by
    rw [after_cons, resolve_ofName_of_missing hlacking, after_cons,
      resolve_ofName_of_found hnested, after_nil]
  have hconsistent := consistent "x_y" [package [], package [("x.y", .int 1)]]
    (package [("x_y", .int 2), ("x.y", .int 3)])
  refine ⟨_, _, _, hconsistent, hconsistent.kept (by rw [hafter]) [_], ?_, ?_⟩
  · rw [hafter]
    rfl
  · rw [resolve_ofName_of_found hboth]

end PackageAlgebra.AttributePath
