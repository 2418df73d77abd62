/-!
# Computations that may fail

A sequence of computations gives results only if each of its parts does, and
gives the results of the parts.
-/

namespace PackageAlgebra

theorem bind_ok {x : Except ε α} {f : α → Except ε β} {b : β} :
    x >>= f = .ok b ↔ ∃ a, x = .ok a ∧ f a = .ok b := by
  cases x <;> simp [bind, Except.bind]

theorem mapM_cons_ok {f : α → Except ε β} {x : α} {xs : List α} {ys : List β} :
    (x :: xs).mapM f = .ok ys ↔ ∃ y zs, f x = .ok y ∧ xs.mapM f = .ok zs ∧ y :: zs = ys := by
  simp [List.mapM_cons, bind_ok, pure, Except.pure]

theorem mapM_ok_of_forall {f : α → Except ε β} {g : α → β} {xs : List α}
    (h : ∀ x ∈ xs, f x = .ok (g x)) : xs.mapM f = .ok (xs.map g) := by
  induction xs with
  | nil => rfl
  | cons x xs ih =>
    exact mapM_cons_ok.mpr ⟨g x, xs.map g, h x (by simp), ih fun y hy => h y (by simp [hy]), rfl⟩

theorem exists_of_mem_mapM {f : α → Except ε β} {xs : List α} {ys : List β}
    (h : xs.mapM f = .ok ys) : ∀ y ∈ ys, ∃ x ∈ xs, f x = .ok y := by
  induction xs generalizing ys with
  | nil =>
    cases h
    simp
  | cons x xs ih =>
    obtain ⟨y, zs, hy, hzs, rfl⟩ := mapM_cons_ok.mp h
    intro z hz
    rcases List.mem_cons.mp hz with rfl | hz
    · exact ⟨x, by simp, hy⟩
    · obtain ⟨w, hw, hwz⟩ := ih hzs z hz
      exact ⟨w, by simp [hw], hwz⟩

theorem pairwise_of_mapM {f : α → Except ε β} {r : α → α → Prop} {s : β → β → Prop}
    (hf : ∀ x₁ x₂ y₁ y₂, f x₁ = .ok y₁ → f x₂ = .ok y₂ → r x₁ x₂ → s y₁ y₂)
    {xs : List α} {ys : List β} (h : xs.mapM f = .ok ys) (hxs : xs.Pairwise r) :
    ys.Pairwise s := by
  induction xs generalizing ys with
  | nil =>
    cases h
    exact .nil
  | cons x xs ih =>
    obtain ⟨y, zs, hy, hzs, rfl⟩ := mapM_cons_ok.mp h
    obtain ⟨hx, hxs⟩ := List.pairwise_cons.mp hxs
    refine List.pairwise_cons.mpr ⟨fun z hz => ?_, ih hzs hxs⟩
    obtain ⟨w, hw, hwz⟩ := exists_of_mem_mapM hzs z hz
    exact hf x w y z hy hwz (hx w hw)

end PackageAlgebra
