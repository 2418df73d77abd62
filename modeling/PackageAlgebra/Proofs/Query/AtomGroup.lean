import PackageAlgebra.Proofs.Package.Basic
import PackageAlgebra.Proofs.Query.Associate
import PackageAlgebra.Proofs.Query.Group

/-!
# Groups that atoms select

The atom of a key goes by the key, a group goes by the printed key. Keys that
were read from text have texts of their own, so both pick the same packages, and
as these have one key there is a best among them.
-/

namespace PackageAlgebra

variable {P : Type} [Package P]

-- ---------------------------------------------------------------------------
-- The packages that the atoms of a key contain
-- ---------------------------------------------------------------------------

theorem PackageKey.eq_of_toString_eq {k l : PackageKey} (hk : k.WellFormed) (hl : l.WellFormed)
    (h : toString k = toString l) : k = l := by
  have hread := parse_chars hk
  have hchars : String.ofList k.chars = String.ofList l.chars := h
  rw [hchars, parse_chars hl] at hread
  exact (Except.ok.inj hread).symm

namespace Atom

theorem contains_ofKey_iff {key : PackageKey} (h : key.isComplete = true) (p : P) :
    (ofKey key).contains p = true ↔ Package.key p = key := by
  simp [contains, holdsFor, keyMatches, ofKey, isBlocking, h, Package.key]

theorem contains_ofSlot_iff {key : PackageKey} (h : key.isComplete = true) (slot : String) (p : P) :
    (ofSlot key slot).contains p = true ↔
      Package.key p = key ∧ (Package.identity p).slot = slot := by
  simp [contains, holdsFor, keyMatches, ofSlot, ofKey, isBlocking, h, Package.key]

end Atom

namespace PackageRecord

theorem valuesOf_key (r : PackageRecord) :
    r.valuesOf ["key"] = .ok [.text (toString r.key)] :=
  rfl

theorem valuesOf_key_slot (r : PackageRecord) :
    r.valuesOf ["key", "slot"] = .ok [.text (toString r.key), .text r.slot] :=
  rfl

end PackageRecord

namespace Timeline

theorem filter_ofAtom_ofPackages (a : Atom) (ps : List P) :
    (ofPackages ps).filter (.ofAtom a) = ofPackages (ps.filter a.contains) := by
  induction ps with
  | nil => rfl
  | cons p ps ih =>
    have hstep := filter_ofAtom_ok a p (ofPackages ps)
    rw [ih] at hstep
    rw [ofPackages, List.map_cons, ← ofPackages, hstep, List.filter_cons]
    split <;> rfl

theorem exists_best {ps : List P} (hne : ps ≠ [])
    (h : ∀ p ∈ ps, ∀ q ∈ ps, Package.key p = Package.key q) :
    ∃ best, (ofPackages ps).best.result = .ok best := by
  rw [result_best, items_ofPackages, answerOf_ok]
  rcases bestOf_cases ps with ⟨hnil, -⟩ | ⟨⟨p, hp, q, hq, hdiffer⟩, -⟩ | ⟨-, best, -, hbest⟩
  · exact absurd hnil hne
  · exact absurd (h p hp q hq) hdiffer
  · exact ⟨best, by rw [hbest]; rfl⟩

-- ---------------------------------------------------------------------------
-- A group and an atom
-- ---------------------------------------------------------------------------

/-- The atom meets just the packages of the group with this key, in their order, and the best of
the group is what it selects. -/
def SelectsGroup (t : Timeline PackageRecord) (names : List String) (key : List Value)
    (a : Atom) : Prop :=
  ∃ groups group best, (t.groupBy names).result = .ok groups ∧ groups.get? key = some group ∧
    t.filter (.ofAtom a) = ofPackages group ∧
    (ofPackages group).best.result = .ok best ∧ (t.select (.ofAtom a)).result = .ok best

theorem selectsGroup_of_contains {names : List String} {keyOf : PackageRecord → List Value}
    {ps : List PackageRecord} {p : PackageRecord} {a : Atom}
    (hvalues : ∀ q ∈ ps, q.valuesOf names = .ok (keyOf q)) (hp : p ∈ ps)
    (hcontains : ∀ q ∈ ps, a.contains q = true ↔ keyOf q = keyOf p)
    (hkeys : ∀ q ∈ ps, a.contains q = true → q.key = p.key) :
    (ofPackages ps).SelectsGroup names (keyOf p) a := by
  have hgroups := result_groupBy_ok (items_ofPackages ps) hvalues
  have hparts := Groups.parts_gather keyOf ps
  -- the group of the package is the one with its key
  obtain ⟨group, hgroup, hmem⟩ : ∃ group ∈ Groups.gather keyOf ps, p ∈ group.packages :=
    List.mem_flatMap.mp (hparts.places.mem_iff.mpr hp)
  have hpackages := hparts.packages group hgroup
  obtain ⟨key, packages⟩ := group
  obtain rfl : packages = ps.filter (keyOf · = key) := hpackages
  obtain rfl : keyOf p = key := of_decide_eq_true (List.mem_filter.mp hmem).2
  have hfilter : ps.filter a.contains = ps.filter (keyOf · = keyOf p) :=
    List.filter_congr fun q hq => by
      rw [Bool.eq_iff_iff, hcontains q hq, decide_eq_true_eq]
  have hselected : (ofPackages ps).filter (.ofAtom a) =
      ofPackages (ps.filter (keyOf · = keyOf p)) := by
    rw [filter_ofAtom_ofPackages, hfilter]
  have hsame : ∀ q ∈ ps.filter (keyOf · = keyOf p), q.key = p.key := by
    intro q hq
    rw [← hfilter, List.mem_filter] at hq
    exact hkeys q hq.1 hq.2
  obtain ⟨best, hbest⟩ := exists_best (List.ne_nil_of_mem hmem) fun q hq r hr =>
    (hsame q hq).trans (hsame r hr).symm
  have hselect : ((ofPackages ps).select (.ofAtom a)).result = .ok best :=
    result_select_eq_ok_iff.mpr (by rw [hselected, hbest])
  exact ⟨_, _, best, hgroups, (hparts.get _ _).mpr hgroup, hselected, hbest, hselect⟩

/-- The groups by key and by key and slot are what the atoms of the package select. -/
structure GroupsByKey (t : Timeline PackageRecord) (p : PackageRecord) : Prop where
  key : t.SelectsGroup ["key"] [.text (toString p.key)] (.ofKey p.key)
  slot : t.SelectsGroup ["key", "slot"] [.text (toString p.key), .text p.slot]
    (.ofSlot p.key p.slot)

theorem groupsByKey_ofPackages {ps : List PackageRecord} {p : PackageRecord}
    (hparsed : ∀ q ∈ ps, ∃ text, PackageKey.parse text = .ok q.key) (hp : p ∈ ps)
    (hcomplete : p.key.isComplete = true) : (ofPackages ps).GroupsByKey p := by
  have hwellFormed : ∀ q ∈ ps, q.key.WellFormed := fun q hq =>
    (hparsed q hq).elim fun _ => PackageKey.wellFormed_of_parse
  have htexts : ∀ q ∈ ps, toString q.key = toString p.key ↔ q.key = p.key := fun q hq =>
    ⟨PackageKey.eq_of_toString_eq (hwellFormed q hq) (hwellFormed p hp), congrArg toString⟩
  constructor
  · have hmeets : ∀ q : PackageRecord, (Atom.ofKey p.key).contains q = true ↔ q.key = p.key :=
      Atom.contains_ofKey_iff hcomplete
    refine selectsGroup_of_contains (fun q _ => q.valuesOf_key) hp ?_ ?_
    · intro q hq
      simp [hmeets, htexts q hq]
    · intro q _ h
      exact (hmeets q).mp h
  · have hmeets : ∀ q : PackageRecord, (Atom.ofSlot p.key p.slot).contains q = true ↔
        q.key = p.key ∧ q.slot = p.slot := Atom.contains_ofSlot_iff hcomplete p.slot
    refine selectsGroup_of_contains (fun q _ => q.valuesOf_key_slot) hp ?_ ?_
    · intro q hq
      simp [hmeets, htexts q hq]
    · intro q _ h
      exact ((hmeets q).mp h).1

/-- On a repository and on a stack the groups of a package by key, and by key and slot, are what
its atoms select. -/
theorem groups_of_atoms :
    (∀ (r : Repository) (p : PackageRecord),
      (∀ q ∈ r.packages, ∃ text, PackageKey.parse text = .ok q.key) → p ∈ r.packages →
      p.key.isComplete = true → r.timeline.GroupsByKey p) ∧
    ∀ (stack : RepositoryStack) (p : PackageRecord),
      (∀ q ∈ stack.packages, ∃ text, PackageKey.parse text = .ok q.key) → p ∈ stack.packages →
      p.key.isComplete = true → stack.timeline.GroupsByKey p :=
  ⟨fun _ _ => groupsByKey_ofPackages, fun _ _ => groupsByKey_ofPackages⟩

theorem groups_of_atoms_slots :
    ∃ v : Version,
      let r (category slot : String) : PackageRecord :=
        { PackageRecord.bare ⟨some category, "b"⟩ v with slot }
      let first : Repository := ⟨"first", 0, [r "a" "0", r "c" "0"]⟩
      let stack : RepositoryStack := ⟨[first, ⟨"second", 1, [r "a" "1"]⟩]⟩
      first.timeline.GroupsByKey (r "a" "0") ∧ stack.timeline.GroupsByKey (r "a" "1") ∧
        stack.timeline.filter (.ofAtom (.ofKey ⟨some "a", "b"⟩)) =
          ofPackages [r "a" "0", r "a" "1"] := by
  refine ⟨⟨⟨['1'], rfl⟩, [], none, [], 0⟩, ?_⟩
  intro r first stack
  have ha : PackageKey.parse "a/b" = .ok ⟨some "a", "b"⟩ := rfl
  have hc : PackageKey.parse "c/b" = .ok ⟨some "c", "b"⟩ := rfl
  have hfirst : ∀ q ∈ first.packages, ∃ text, PackageKey.parse text = .ok q.key := by
    simp only [first, List.mem_cons, List.not_mem_nil, or_false]
    rintro q (rfl | rfl)
    · exact ⟨_, ha⟩
    · exact ⟨_, hc⟩
  have hstack : ∀ q ∈ stack.packages, ∃ text, PackageKey.parse text = .ok q.key := by
    intro q hq
    have hq : q ∈ first.packages ++ [r "a" "1"] := hq
    rcases List.mem_append.mp hq with hq | hq
    · exact hfirst q hq
    · obtain rfl := List.mem_singleton.mp hq
      exact ⟨_, ha⟩
  exact ⟨groups_of_atoms.1 first _ hfirst (by simp [first]) rfl,
    groups_of_atoms.2 stack _ hstack (by simp [stack, RepositoryStack.packages]) rfl, by rfl⟩

end Timeline

end PackageAlgebra
