import PackageAlgebra.Package.Record.Attributes
import PackageAlgebra.Proofs.Query.Best

/-!
# Packages in order

The last package of the sorted set is the last of the best ones, which is the
one that is found without sorting. Packages may be duplicates of one another:
which of them is meant is told by their places in the set.
-/

namespace PackageAlgebra

open Std (TransCmp OrientedCmp)
open Package (compareTo key)

/-- A package with its place in a set. -/
structure Placed (P : Type) where
  package : P
  place : Nat

variable {P : Type} [Package P]

instance : Package (Placed P) where
  identity p := Package.identity p.package
  attribute? p := Package.attribute? p.package
  namespaces p := Package.namespaces p.package

def placed (ps : List P) : List (Placed P) :=
  ps.zipIdx.map fun (package, place) => ⟨package, place⟩

/-- All the places of a set: a worse package first, and of two that are equally good the one that
comes first in the set. -/
structure InOrder (ps : List P) (order : List (Placed P)) : Prop where
  perm : order.Perm (placed ps)
  pairwise : order.Pairwise fun p q =>
    compareTo p q = .lt ∨ compareTo p q = .eq ∧ p.place < q.place

omit [Package P] in
@[simp] theorem map_package_placed (ps : List P) : (placed ps).map (·.package) = ps := by
  simp [placed, Function.comp_def]

omit [Package P] in
theorem map_place_placed (ps : List P) : (placed ps).map (·.place) = List.range ps.length := by
  simp [placed, Function.comp_def, List.range_eq_range']

omit [Package P] in
theorem pairwise_place_placed (ps : List P) :
    (placed ps).Pairwise fun p q => p.place < q.place := by
  have h : ((placed ps).map (·.place)).Pairwise (· < ·) := by
    rw [map_place_placed]
    exact List.pairwise_lt_range
  exact List.pairwise_map.mp h

theorem DividesAt.of_placed {qs : List (Placed P)} {q : Placed P} (h : DividesAt qs q) :
    DividesAt (qs.map (·.package)) q.package := by
  obtain ⟨before, after, rfl, hbefore, hafter⟩ := h
  refine ⟨before.map (·.package), after.map (·.package), by simp, ?_, ?_⟩
  · intro p hp
    obtain ⟨r, hr, rfl⟩ := List.mem_map.mp hp
    exact hbefore r hr
  · intro p hp
    obtain ⟨r, hr, rfl⟩ := List.mem_map.mp hp
    exact hafter r hr

theorem isLE_total (p q : P) : ((compareTo p q).isLE || (compareTo q p).isLE) = true := by
  rw [Bool.or_eq_true]
  exact (Decidable.em (compareTo p q = .lt)).imp Ordering.isLE_of_eq_lt Package.isLE_of_ne_lt

theorem lt_or_eq_of_zipIdxLE {p q : P × Nat}
    (h : List.zipIdxLE (fun p q => (compareTo p q).isLE) p q = true) :
    compareTo p.1 q.1 = .lt ∨ compareTo p.1 q.1 = .eq ∧ p.2 ≤ q.2 := by
  cases hc : compareTo p.1 q.1 with
  | lt => exact .inl rfl
  | eq =>
    have hc' : compareTo q.1 p.1 = .eq := OrientedCmp.eq_symm hc
    rw [List.zipIdxLE, hc, hc'] at h
    exact .inr ⟨rfl, by simpa using h⟩
  | gt =>
    rw [List.zipIdxLE, hc] at h
    cases h

theorem exists_inOrder (ps : List P) :
    ∃ order, InOrder ps order ∧ sortPackages ps = order.map (·.package) := by
  let sorted := ps.zipIdx.mergeSort (List.zipIdxLE fun p q => (compareTo p q).isLE)
  have hperm : sorted.Perm ps.zipIdx := List.mergeSort_perm _ _
  have hsorted : sorted.Pairwise fun p q =>
      compareTo p.1 q.1 = .lt ∨ compareTo p.1 q.1 = .eq ∧ p.2 ≤ q.2 :=
    (List.pairwise_mergeSort (List.zipIdxLE_trans fun _ _ _ => TransCmp.isLE_trans)
      (List.zipIdxLE_total isLE_total) ps.zipIdx).imp lt_or_eq_of_zipIdxLE
  have hplaces : sorted.Pairwise fun p q => p.2 ≠ q.2 := by
    have hnodup : (sorted.map (·.2)).Nodup :=
      (hperm.map (·.2)).nodup_iff.mpr (by simp [List.nodup_range'])
    exact List.pairwise_map.mp hnodup
  refine ⟨sorted.map fun (package, place) => ⟨package, place⟩, ⟨hperm.map _, ?_⟩, ?_⟩
  · refine List.pairwise_map.mpr ((hsorted.and hplaces).imp ?_)
    rintro p q ⟨hlt | ⟨heq, hle⟩, hne⟩
    · exact .inl hlt
    · exact .inr ⟨heq, Nat.lt_of_le_of_ne hle hne⟩
  · rw [List.map_map]
    exact List.mergeSort_zipIdx.symm

-- ---------------------------------------------------------------------------
-- The last package
-- ---------------------------------------------------------------------------

namespace InOrder

variable {ps : List P} {order before : List (Placed P)} {last : Placed P}

theorem perm_packages (h : InOrder ps order) : (order.map (·.package)).Perm ps := by
  simpa using h.perm.map (·.package)

/-- What comes before the last package is no better. -/
theorem dividesAt_last (h : InOrder ps (before ++ [last])) : DividesAt (before ++ [last]) last := by
  refine ⟨before, [], rfl, fun p hp => ?_, by simp⟩
  rcases (List.pairwise_append.mp h.pairwise).2.2 p hp last (by simp) with hlt | ⟨heq, -⟩
  · simp [hlt]
  · simp [heq]

theorem dividesAt_placed (h : InOrder ps (before ++ [last])) : DividesAt (placed ps) last := by
  have hmem : last ∈ placed ps := h.perm.mem_iff.mp (by simp)
  obtain ⟨front, back, hplaced⟩ := List.append_of_mem hmem
  have hle : ∀ p ∈ placed ps, (compareTo p last).isLE = true := fun p hp =>
    h.dividesAt_last.isLE (h.perm.mem_iff.mpr hp)
  have hplaces := pairwise_place_placed ps
  rw [hplaced] at hle hplaces ⊢
  refine ⟨front, back, rfl, fun p hp => hle p (by simp [hp]), fun p hp => ?_⟩
  have hplace : last.place < p.place :=
    List.rel_of_pairwise_cons (List.pairwise_append.mp hplaces).2.1 hp
  have hbefore : p ∈ before := by
    have hp : p ∈ before ++ [last] := h.perm.mem_iff.mpr (by simp [hplaced, hp])
    rcases List.mem_append.mp hp with hp | hp
    · exact hp
    · rw [List.mem_singleton.mp hp] at hplace
      exact absurd hplace (Nat.lt_irrefl _)
  rcases (List.pairwise_append.mp h.pairwise).2.2 p hbefore last (by simp) with hlt | ⟨-, hlt⟩
  · exact hlt
  · exact absurd hlt (Nat.lt_asymm hplace)

end InOrder

namespace Timeline

theorem result_best_of_dividesAt {t : Timeline P} {ps : List P} {p : P}
    (hitems : t.items = ps.map .ok) (hkeys : ∀ q ∈ ps, key q = key p) (h : DividesAt ps p) :
    t.best.result = .ok p := by
  rw [result_best_iff, hitems]
  exact .best (fun q hq r hr => (hkeys q hq).trans (hkeys r hr).symm) h.isLastMaximal

theorem result_sorted (t : Timeline P) :
    t.sorted.result = (t.items.mapM id).map sortPackages := by
  rw [sorted, Answer.result_map, result_packages]

/-- Sorting a set fails with its first error, and puts its packages in order otherwise. If they have
one key, the last of them in order is the best, also of the set in order. -/
theorem sorted_agrees_best (t : Timeline P) :
    (∀ (ps : List P) (e : Error) (rest : List (Except Error P)),
      t.items = ps.map .ok ++ .error e :: rest → t.sorted.result = .error e) ∧
    ∀ ps : List P, t.items = ps.map .ok →
      ∃ order : List (Placed P), InOrder ps order ∧
        t.sorted.result = .ok (order.map (·.package)) ∧
        (ps ≠ [] → (∀ p ∈ ps, ∀ q ∈ ps, key p = key q) →
          ∃ last, order.getLast? = some last ∧
            (ofPackages (placed ps)).best.result = .ok last ∧
            t.best.result = .ok last.package ∧
            (ofPackages order).best.result = .ok last ∧
            (ofPackages (order.map (·.package))).best.result = .ok last.package) := by
  constructor
  · intro ps e rest hitems
    rw [result_sorted, hitems, mapM_items_error]
    rfl
  · intro ps hitems
    obtain ⟨order, horder, hsort⟩ := exists_inOrder ps
    refine ⟨order, horder, ?_, fun hne hkeys => ?_⟩
    · rw [result_sorted, hitems, mapM_items_ok, ← hsort]
      rfl
    · have hnil : order ≠ [] := by
        rintro rfl
        exact hne horder.perm_packages.nil_eq.symm
      obtain ⟨before, last, rfl⟩ : ∃ before last, order = before ++ [last] :=
        ⟨_, _, (List.dropLast_concat_getLast hnil).symm⟩
      have hordered := horder.dividesAt_last
      have hplaced := horder.dividesAt_placed
      have hmem : ∀ q ∈ before ++ [last], q.package ∈ ps := fun q hq =>
        horder.perm_packages.mem_iff.mp (List.mem_map_of_mem hq)
      have hkey : ∀ p ∈ ps, key p = key last.package := fun p hp =>
        hkeys p hp _ (hmem last (by simp))
      refine ⟨last, List.getLast?_concat, ?_, ?_, ?_, ?_⟩
      · refine result_best_of_dividesAt (items_ofPackages _) (fun q hq => ?_) hplaced
        exact hkey _ (hmem q (horder.perm.mem_iff.mpr hq))
      · exact result_best_of_dividesAt hitems hkey (by simpa using hplaced.of_placed)
      · refine result_best_of_dividesAt (items_ofPackages _) (fun q hq => ?_) hordered
        exact hkey _ (hmem q hq)
      · refine result_best_of_dividesAt (items_ofPackages _) (fun p hp => ?_) hordered.of_placed
        exact hkey p (horder.perm_packages.mem_iff.mp hp)

theorem sorted_agrees_best_duplicates :
    ∃ v w : Version, toString v = "1.0" ∧ toString w = "1.00" ∧
      let r (version : Version) := PackageRecord.bare ⟨some "a", "b"⟩ version
      let e : Error := .attributeNotFound "depth" ⟨some "a", "b"⟩
      (∃ order last, InOrder [r v, r w, r v] order ∧
        (ofPackages [r v, r w, r v]).sorted.result = .ok (order.map (·.package)) ∧
        order.getLast? = some last ∧ last.package = r v ∧ last.place = 2 ∧
        (ofPackages order).best.result = .ok last) ∧
      (sorted [.item (.ok (r v)), .item (.error e), .item (.ok (r w))]).result = .error e := by
  have hthird : ∀ p q r : PackageRecord, key p = key r → key q = key r →
      (ofPackages (placed [p, q, r])).best.result = .ok ⟨r, 2⟩ →
      ∃ order last, InOrder [p, q, r] order ∧
        (ofPackages [p, q, r]).sorted.result = .ok (order.map (·.package)) ∧
        order.getLast? = some last ∧ last.package = r ∧ last.place = 2 ∧
        (ofPackages order).best.result = .ok last := by
    intro p q r hp hq hthird
    obtain ⟨order, horder, hsorted, hbest⟩ :=
      (sorted_agrees_best (ofPackages [p, q, r])).2 _ (items_ofPackages _)
    obtain ⟨last, hlast, hplaced, -, hordered, -⟩ := hbest (by simp) (by simp [hp, hq])
    obtain rfl : last = ⟨r, 2⟩ := Except.ok.inj (hplaced.symm.trans hthird)
    exact ⟨order, _, horder, hsorted, hlast, rfl, rfl, hordered⟩
  exact ⟨⟨⟨['1'], rfl⟩, [⟨['0'], rfl⟩], none, [], 0⟩,
    ⟨⟨['1'], rfl⟩, [⟨['0', '0'], rfl⟩], none, [], 0⟩, rfl, rfl, hthird _ _ _ rfl rfl rfl,
    (sorted_agrees_best _).1 [_] _ [.ok _] rfl⟩

end Timeline

end PackageAlgebra
