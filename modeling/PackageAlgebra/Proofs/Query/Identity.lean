import PackageAlgebra.CommandLine.Reply
import PackageAlgebra.Proofs.Atom.RoundTrip
import PackageAlgebra.Proofs.Query.AtomGroup
import PackageAlgebra.Proofs.Query.Concord

/-!
# A printed identity names its package

Behind an equals sign the line that is printed for a package is an atom. It
describes just the packages with that identity, up to the spelling of the
version, the subslot and the priority, which are not printed.
-/

namespace PackageAlgebra

open Package (identity)

-- ---------------------------------------------------------------------------
-- The atom of an identity
-- ---------------------------------------------------------------------------

/-- The identities that print alike, but that one version may have several spellings. -/
structure Identity.Twin (i j : Identity) : Prop where
  key : i.key = j.key
  version : i.version.same j.version = true
  slot : i.slot = j.slot
  repository : i.repository = j.repository

namespace Atom

/-- The atom that says key, version, slot and repository. -/
def ofIdentity (i : Identity) : Atom :=
  { ofSlot i.key i.slot with bound := some ⟨.equal, i.version⟩, repository := i.repository }

theorem chars_ofIdentity (i : Identity) : (ofIdentity i).chars = ['='] ++ i.chars := by
  cases hrepository : i.repository <;>
    simp [chars, ofIdentity, ofSlot, ofKey, slotChars, Slot.chars, VersionBound.chars,
      Operator.sign, Identity.chars, hrepository]

theorem toString_ofIdentity (i : Identity) : toString (ofIdentity i) = "=" ++ i.display := by
  show String.ofList (ofIdentity i).chars = _
  rw [chars_ofIdentity, String.ofList_append]
  rfl

theorem wellFormed_ofIdentity {i : Identity} (hkey : i.key.WellFormed)
    (hslot : Text.isSlotName i.slot.toList = true)
    (hrepository : ∀ r ∈ i.repository, Text.isRepositoryName r.toList = true) :
    (ofIdentity i).WellFormed where
  key := hkey
  unbounded h := nomatch h
  slot s hs := by
    cases hs
    exact ⟨hslot, fun _ h => nomatch h⟩
  star h := nomatch h
  repository := hrepository
  useRequirements _ h := nomatch h

theorem contains_ofIdentity_iff {P : Type} [Package P] {i : Identity} {repository : String}
    (hcomplete : i.key.isComplete = true) (hrepository : i.repository = some repository) (p : P) :
    (ofIdentity i).contains p = true ↔ (identity p).Twin i := by
  have hparts : (ofIdentity i).contains p = true ↔
      (((identity p).key = i.key ∧ (identity p).version.same i.version = true) ∧
        (identity p).slot = i.slot) ∧ (identity p).repository = i.repository := by
    simp [contains, holdsFor, keyMatches, ofIdentity, ofSlot, ofKey, isBlocking, Operator.admits,
      hcomplete, hrepository]
  rw [hparts]
  constructor
  · rintro ⟨⟨⟨hkey, hversion⟩, hslot⟩, hrepo⟩
    exact ⟨hkey, hversion, hslot, hrepo⟩
  · intro h
    exact ⟨⟨⟨h.key, h.version⟩, h.slot⟩, h.repository⟩

end Atom

-- ---------------------------------------------------------------------------
-- The one package that an atom contains
-- ---------------------------------------------------------------------------

namespace Timeline

variable {P : Type} [Package P]

omit [Package P] in
theorem onlyOf_around (before after : List P) (p : P) :
    onlyOf ((before ++ p :: after).map .ok) =
      if before ++ after = [] then .ok p else .error (.set .ambiguous .get) := by
  match before, after with
  | [], [] => rfl
  | [], _ :: _ => rfl
  | [_], _ => rfl
  | _ :: _ :: _, _ => rfl

theorem result_get_around {a : Atom} {p : P} (h : a.contains p = true) (before after : List P) :
    ((ofPackages (before ++ p :: after)).get (.ofAtom a)).result =
      if ∀ q ∈ before ++ after, ¬a.contains q = true then .ok p
      else .error (.set .ambiguous .get) := by
  rw [result_get, filter_ofAtom_ofPackages, items_ofPackages, List.filter_append,
    List.filter_cons_of_pos h, onlyOf_around]
  simp only [← List.filter_append, List.filter_eq_nil_iff]

end Timeline

/-- Behind an equals sign the line of a package is an atom of the packages with its identity, and
the one that is got by it if there is no other. -/
theorem RepositoryStack.get_line {stack : RepositoryStack} {before after : List PackageRecord}
    {p : PackageRecord} {repository : String} (hstack : stack.packages = before ++ p :: after)
    (hkey : ∃ text, PackageKey.parse text = .ok p.key) (hcomplete : p.key.isComplete = true)
    (hslot : Text.isSlotName p.slot.toList = true) (hrepository : p.repository = some repository)
    (hname : Text.isRepositoryName repository.toList = true) :
    ∃ a, Atom.parse ("=" ++ CommandLine.line p) = .ok a ∧
      (∀ {Q : Type} [Package Q] (q : Q), a.contains q = true ↔ (identity q).Twin p.identity) ∧
      ((stack.timeline.get (.ofAtom a)).result = .ok p ↔
        ∀ q ∈ before ++ after, ¬q.identity.Twin p.identity) ∧
      ((∃ q ∈ before ++ after, q.identity.Twin p.identity) →
        (stack.timeline.get (.ofAtom a)).result = .error (.set .ambiguous .get)) := by
  obtain ⟨text, htext⟩ := hkey
  have hmeets : ∀ {Q : Type} [Package Q] (q : Q),
      (Atom.ofIdentity p.identity).contains q = true ↔ (identity q).Twin p.identity :=
    Atom.contains_ofIdentity_iff hcomplete hrepository
  have hwellFormed : (Atom.ofIdentity p.identity).WellFormed := by
    refine Atom.wellFormed_ofIdentity (PackageKey.wellFormed_of_parse htext) hslot ?_
    intro r hr
    obtain rfl : repository = r := Option.some.inj (hrepository.symm.trans hr)
    exact hname
  have hown : (Atom.ofIdentity p.identity).contains p = true :=
    (hmeets p).mpr ⟨rfl, beq_iff_eq.mpr Std.ReflCmp.compare_self, rfl, rfl⟩
  have hothers : (∀ q ∈ before ++ after, ¬(Atom.ofIdentity p.identity).contains q = true) ↔
      ∀ q ∈ before ++ after, ¬q.identity.Twin p.identity :=
    forall₂_congr fun q _ => (hmeets q).not
  have hget := Timeline.result_get_around hown before after
  rw [← hstack] at hget
  have hread := Atom.parse_of_wellFormed hwellFormed
  rw [Atom.toString_ofIdentity] at hread
  refine ⟨_, hread, hmeets, ?_, ?_⟩
  · rw [timeline, hget, ← hothers]
    split
    next halone => exact iff_of_true rfl halone
    next hnot => exact iff_of_false nofun hnot
  · rintro ⟨q, hq, htwin⟩
    rw [timeline, hget, if_neg fun halone => hothers.mp halone q hq htwin]

theorem RepositoryStack.get_line_hyphens :
    ∃ v w unrevised : Version, toString v = "2.0-r3" ∧ toString w = "2.00-r3" ∧
      toString unrevised = "2.0" ∧
      let r (version : Version) : PackageRecord :=
        { PackageRecord.bare ⟨some "a", "b-1"⟩ version with repository := some "x" }
      let stack : RepositoryStack := ⟨[⟨"x", 0, [r unrevised, r v]⟩]⟩
      let upper : Repository := ⟨"x", 1, [r w]⟩
      CommandLine.line (r v) = "a/b-1-2.0-r3:0::x" ∧
        ∃ a, Atom.parse ("=" ++ CommandLine.line (r v)) = .ok a ∧
          (stack.timeline.get (.ofAtom a)).result = .ok (r v) ∧
          ((stack.push upper).timeline.get (.ofAtom a)).result = .error (.set .ambiguous .get) := by
  refine ⟨⟨⟨['2'], rfl⟩, [⟨['0'], rfl⟩], none, [], 3⟩,
    ⟨⟨['2'], rfl⟩, [⟨['0', '0'], rfl⟩], none, [], 3⟩, ⟨⟨['2'], rfl⟩, [⟨['0'], rfl⟩], none, [], 0⟩,
    rfl, rfl, rfl, ?_⟩
  intro r stack upper
  have hkey : PackageKey.parse "a/b-1" = .ok ⟨some "a", "b-1"⟩ := rfl
  have hslot : Text.isSlotName "0".toList = true := rfl
  have hname : Text.isRepositoryName "x".toList = true := rfl
  have hstack : stack.packages = [r _] ++ r _ :: [] := rfl
  have hpushed : (stack.push upper).packages = [r _] ++ r _ :: [r _] := rfl
  obtain ⟨a, hread, -, halone, -⟩ := get_line hstack ⟨_, hkey⟩ rfl hslot rfl hname
  obtain ⟨b, hread', -, -, htwin⟩ := get_line hpushed ⟨_, hkey⟩ rfl hslot rfl hname
  obtain rfl : a = b := Except.ok.inj (hread.symm.trans hread')
  -- with the definition in place the records are closed, and compute
  subst r
  refine ⟨rfl, a, hread, halone.mpr fun q hq h => ?_,
    htwin ⟨_, List.mem_concat_self, rfl, rfl, rfl, rfl⟩⟩
  obtain rfl := List.mem_singleton.mp hq
  exact Bool.false_ne_true h.version

end PackageAlgebra
