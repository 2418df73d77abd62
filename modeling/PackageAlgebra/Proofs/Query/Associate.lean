import PackageAlgebra.Proofs.Query.Best
import PackageAlgebra.Repository.Basic

/-!
# Atoms completed from a set

That an atom selects at all means that everything it meets in the set has one
key, so with that key put in it meets the same packages of the set. What it
meets has its name, too, unless it is a blocker.
-/

namespace PackageAlgebra

open Package (identity)

variable {P : Type} [Package P]

-- ---------------------------------------------------------------------------
-- A timeline filtered by an atom
-- ---------------------------------------------------------------------------

namespace Timeline

theorem filter_ofAtom_ok (a : Atom) (p : P) (t : Timeline P) :
    filter (.ofAtom a) (.item (.ok p) :: t) =
      if a.contains p then .item (.ok p) :: t.filter (.ofAtom a) else t.filter (.ofAtom a) := by
  have hinspect : (Filter.ofAtom a).inspect p = ⟨.ok (a.contains p), [], .ofAtom a⟩ := by
    cases h : a.contains p <;>
      simp [Filter.inspect, Filter.ofAtom, Condition.inspectAll, Condition.inspect,
        Inspection.map, h]
  rw [filter, hinspect]
  cases a.contains p <;> rfl

theorem mem_items_filter_ofAtom {a : Atom} {p : P} {t : Timeline P} :
    .ok p ∈ (t.filter (.ofAtom a)).items ↔ .ok p ∈ t.items ∧ a.contains p = true := by
  induction t with
  | nil => simp [filter]
  | cons event t ih =>
    rcases event with c | e | q
    · simpa [filter] using ih
    · simpa [filter] using ih
    · rw [filter_ofAtom_ok]
      split
      next hq =>
        have hmeets : p = q → a.contains p = true := fun heq => heq ▸ hq
        simp [ih, or_and_right, and_iff_left_of_imp hmeets]
      next hq =>
        have hmisses : ¬(p = q ∧ a.contains p = true) := by
          rintro ⟨heq, hp⟩
          exact hq (heq ▸ hp)
        simp [ih, or_and_right, hmisses]

theorem filter_ofAtom_congr {a b : Atom} {t : Timeline P}
    (h : ∀ p, .ok p ∈ t.items → a.contains p = b.contains p) :
    t.filter (.ofAtom a) = t.filter (.ofAtom b) := by
  induction t with
  | nil => rfl
  | cons event t ih =>
    match event with
    | .call c => simp only [filter, ih h]
    | .item (.error e) =>
      have ih := ih fun p hp => h p (List.mem_cons_of_mem _ hp)
      simp only [filter, ih]
    | .item (.ok p) =>
      have ih := ih fun q hq => h q (List.mem_cons_of_mem _ hq)
      rw [filter_ofAtom_ok, filter_ofAtom_ok, h p List.mem_cons_self, ih]

theorem result_select_eq_ok_iff {f : Filter P} {t : Timeline P} {p : P} :
    (t.select f).result = .ok p ↔ (t.filter f).best.result = .ok p := by
  rw [select, Answer.mapError]
  cases (t.filter f).best.result with
  | error e =>
    constructor
    · intro h
      cases h
    · intro h
      cases h
  | ok q => exact .rfl

theorem mem_of_select {f : Filter P} {t : Timeline P} {p : P} (h : (t.select f).result = .ok p) :
    .ok p ∈ (t.filter f).items ∧
      ∀ q, .ok q ∈ (t.filter f).items → Package.key q = Package.key p := by
  have hbest := (result_best_iff _ _).mp (result_select_eq_ok_iff.mp h)
  generalize (t.filter f).items = items at hbest
  cases hbest with
  | best hsame hlast =>
    obtain ⟨-, -, -, ⟨hp, -⟩, -⟩ := hlast
    refine ⟨List.mem_map_of_mem hp, fun q hq => ?_⟩
    simp only [List.mem_map, Except.ok.injEq, exists_eq_right] at hq
    exact hsame q hq p hp

end Timeline

-- ---------------------------------------------------------------------------
-- Another key for an atom
-- ---------------------------------------------------------------------------

namespace Atom

theorem holdsFor_iff (a : Atom) (i : Identity) :
    a.holdsFor i = true ↔
      a.keyMatches i.key = true ∧ ({ a with key := i.key } : Atom).holdsFor i = true := by
  have hself : ({ a with key := i.key } : Atom).keyMatches i.key = true := by
    simp [keyMatches]
  rw [holdsFor, holdsFor, hself]
  simp only [Bool.and_assoc, Bool.true_and, Bool.and_eq_true]

theorem name_of_keyMatches {a : Atom} {k : PackageKey} (h : a.keyMatches k = true) :
    k.name = a.key.name := by
  rw [keyMatches] at h
  split at h
  · rw [beq_iff_eq.mp h]
  · exact beq_iff_eq.mp h

theorem category_of_keyMatches {a : Atom} {k : PackageKey} (h : a.keyMatches k = true) :
    ∀ category ∈ a.key.category, k.category = some category := by
  intro category hcategory
  have hcomplete : a.key.isComplete = true := Option.isSome_iff_exists.mpr ⟨category, hcategory⟩
  rw [keyMatches, if_pos hcomplete] at h
  rw [beq_iff_eq.mp h]
  exact hcategory

theorem keyMatches_of_completed {a : Atom} {k l : PackageKey} (hk : a.keyMatches k = true)
    (hl : ({ a with key := k } : Atom).keyMatches l = true) : a.keyMatches l = true := by
  rw [keyMatches] at hk
  split at hk
  next =>
    -- a complete key is met by itself only
    rwa [beq_iff_eq.mp hk] at hl
  next hincomplete =>
    have hname : l.name = k.name := name_of_keyMatches hl
    rwa [keyMatches, if_neg hincomplete, hname]

theorem contains_of_not_isBlocking {a : Atom} (h : a.isBlocking = false) (p : P) :
    a.contains p = a.holdsFor (identity p) := by
  rw [contains, h, Bool.bne_false]

theorem contains_of_isBlocking {a : Atom} (h : a.isBlocking = true) (p : P) :
    a.contains p = !a.holdsFor (identity p) := by
  rw [contains, h, Bool.bne_true]

/-- With the key of a package that it contains an atom still contains the packages of that key. -/
theorem contains_completed {a : Atom} {p q : P} (hblocking : a.isBlocking = false)
    (hp : a.contains p = true) (hq : a.contains q = true → Package.key q = Package.key p) :
    ({ a with key := Package.key p } : Atom).contains q = a.contains q := by
  have hblocking' : ({ a with key := Package.key p } : Atom).isBlocking = false := hblocking
  rw [contains_of_not_isBlocking hblocking] at hp hq ⊢
  rw [contains_of_not_isBlocking hblocking', Bool.eq_iff_iff, holdsFor_iff, holdsFor_iff a]
  constructor
  · rintro ⟨hkey, hrest⟩
    exact ⟨keyMatches_of_completed ((holdsFor_iff a _).mp hp).1 hkey, hrest⟩
  · rintro ⟨hkey, hrest⟩
    have hsame : (identity q).key = Package.key p := hq ((holdsFor_iff a _).mpr ⟨hkey, hrest⟩)
    exact ⟨by simp [keyMatches, hsame], hrest⟩

theorem associate_ok {a b : Atom} {t : Timeline P} :
    (a.associate t).result = .ok b ↔
      ∃ p, (t.select (.ofAtom a)).result = .ok p ∧ { a with key := Package.key p } = b := by
  rw [associate, Answer.result_map]
  cases (t.select (.ofAtom a)).result <;> simp [Except.map]

/-- An atom that is completed from a set selects from it what it selected before. -/
theorem select_of_associate {a b : Atom} {t : Timeline P} (hblocking : a.isBlocking = false)
    (h : (a.associate t).result = .ok b) :
    (∀ p, .ok p ∈ t.items → b.contains p = a.contains p) ∧
      (∃ p, (t.select (.ofAtom a)).result = .ok p ∧ (t.select (.ofAtom b)).result = .ok p) ∧
      t.select (.ofAtom b) = t.select (.ofAtom a) ∧
      (b.associate t).result = .ok b := by
  obtain ⟨p, hselect, rfl⟩ := associate_ok.mp h
  obtain ⟨hmem, hkeys⟩ := Timeline.mem_of_select hselect
  have hcontains : ∀ q, .ok q ∈ t.items →
      ({ a with key := Package.key p } : Atom).contains q = a.contains q := by
    intro q hq
    have hp := (Timeline.mem_items_filter_ofAtom.mp hmem).2
    refine contains_completed hblocking hp fun hmeets => ?_
    exact hkeys q (Timeline.mem_items_filter_ofAtom.mpr ⟨hq, hmeets⟩)
  have hsame : t.select (.ofAtom { a with key := Package.key p }) = t.select (.ofAtom a) := by
    rw [Timeline.select, Timeline.select, Timeline.filter_ofAtom_congr hcontains]
  rw [hsame]
  exact ⟨hcontains, ⟨p, hselect, hselect⟩, rfl,
    associate_ok.mpr ⟨p, by rw [hsame, hselect], rfl⟩⟩

theorem select_of_associate_name :
    ∃ (a b : Atom) (v : Version),
      let stack : RepositoryStack :=
        ⟨[⟨"first", 0, [.bare ⟨some "app-misc", "python"⟩ v]⟩,
          ⟨"second", 1, [{ PackageRecord.bare ⟨some "dev-lang", "python"⟩ v with slot := "3" }]⟩]⟩
      parse "python:3" = .ok a ∧ a.isBlocking = false ∧
        (a.associate stack.timeline).result = .ok b ∧ toString b = "dev-lang/python:3" ∧
        (∀ p, .ok p ∈ stack.timeline.items → b.contains p = a.contains p) ∧
        stack.timeline.select (.ofAtom b) = stack.timeline.select (.ofAtom a) ∧
        (b.associate stack.timeline).result = .ok b := by
  refine ⟨{ ofKey ⟨none, "python"⟩ with slot := some ⟨"3", none⟩ },
    { ofKey ⟨some "dev-lang", "python"⟩ with slot := some ⟨"3", none⟩ },
    ⟨⟨['1'], rfl⟩, [], none, [], 0⟩, ?_⟩
  intro stack
  have hassociate : (associate { ofKey ⟨none, "python"⟩ with slot := some ⟨"3", none⟩ }
      stack.timeline).result =
        .ok { ofKey ⟨some "dev-lang", "python"⟩ with slot := some ⟨"3", none⟩ } := rfl
  obtain ⟨hcontains, -, hselect, hagain⟩ := select_of_associate rfl hassociate
  exact ⟨rfl, rfl, hassociate, rfl, hcontains, hselect, hagain⟩

/-- What a set completes of an atom is the key. The key has the atom's name, and its category where
it had one, but for a blocker: that one takes the key of the packages that it does not block. -/
theorem parts_of_associate {a b : Atom} {t : Timeline P} (h : (a.associate t).result = .ok b) :
    { b with key := a.key } = a ∧
      (a.isBlocking = false → b.key.name = a.key.name ∧
        ∀ category ∈ a.key.category, b.key.category = some category) ∧
      (a.isBlocking = true →
        (∃ p, .ok p ∈ t.items ∧ a.holdsFor (identity p) = false) ∧
        ∀ p, .ok p ∈ t.items → a.holdsFor (identity p) = false → Package.key p = b.key) := by
  obtain ⟨p, hselect, rfl⟩ := associate_ok.mp h
  obtain ⟨hmem, hkeys⟩ := Timeline.mem_of_select hselect
  obtain ⟨hp, hcontains⟩ := Timeline.mem_items_filter_ofAtom.mp hmem
  refine ⟨rfl, fun hblocking => ?_, fun hblocking => ?_⟩
  · rw [contains_of_not_isBlocking hblocking] at hcontains
    obtain ⟨hkey, -⟩ := (holdsFor_iff a _).mp hcontains
    exact ⟨name_of_keyMatches hkey, category_of_keyMatches hkey⟩
  · have hmisses : ∀ q : P, a.contains q = true ↔ a.holdsFor (identity q) = false := fun q => by
      rw [contains_of_isBlocking hblocking, Bool.not_eq_true']
    refine ⟨⟨p, hp, (hmisses p).mp hcontains⟩, fun q hq hholds => ?_⟩
    exact hkeys q (Timeline.mem_items_filter_ofAtom.mpr ⟨hq, (hmisses q).mpr hholds⟩)

theorem parts_of_associate_use :
    ∃ (a b : Atom) (v : Version),
      let stack : RepositoryStack :=
        ⟨[⟨"first", 0, [.bare ⟨some "app-misc", "foo"⟩ v, .bare ⟨some "app-misc", "bar"⟩ v]⟩]⟩
      parse "foo[ssl]" = .ok a ∧ (a.associate stack.timeline).result = .ok b ∧
        toString b = "app-misc/foo[ssl]" ∧ { b with key := a.key } = a ∧
        a.isBlocking = false ∧ b.key.name = a.key.name := by
  refine ⟨{ ofKey ⟨none, "foo"⟩ with useRequirements := some "ssl" },
    { ofKey ⟨some "app-misc", "foo"⟩ with useRequirements := some "ssl" },
    ⟨⟨['1'], rfl⟩, [], none, [], 0⟩, ?_⟩
  intro stack
  have hassociate : (associate { ofKey ⟨none, "foo"⟩ with useRequirements := some "ssl" }
      stack.timeline).result =
        .ok { ofKey ⟨some "app-misc", "foo"⟩ with useRequirements := some "ssl" } := rfl
  obtain ⟨hparts, hname, -⟩ := parts_of_associate hassociate
  exact ⟨rfl, hassociate, rfl, hparts, rfl, (hname rfl).1⟩

/-- Of two packages the blocker of `foo` is completed with the one that is no `foo`. -/
theorem associate_blocker :
    ∃ (a b : Atom) (v : Version),
      let stack : RepositoryStack :=
        ⟨[⟨"first", 0, [.bare ⟨some "app-misc", "foo"⟩ v, .bare ⟨some "app-misc", "bar"⟩ v]⟩]⟩
      parse "!foo" = .ok a ∧ (a.associate stack.timeline).result = .ok b ∧
        toString b = "!app-misc/bar" ∧ b.key.name ≠ a.key.name :=
  ⟨{ ofKey ⟨none, "foo"⟩ with blocker := some .weak },
    { ofKey ⟨some "app-misc", "bar"⟩ with blocker := some .weak },
    ⟨⟨['1'], rfl⟩, [], none, [], 0⟩, rfl, rfl, rfl, by decide⟩

end Atom

end PackageAlgebra
