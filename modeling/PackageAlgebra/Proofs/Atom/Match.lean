import PackageAlgebra.Atom.Basic
import PackageAlgebra.Atom.Parser
import PackageAlgebra.Package.Record.Attributes
import PackageAlgebra.Proofs.Version.Glob
import PackageAlgebra.Proofs.Version.Order

/-!
# Equal atoms and their packages

All operators but the glob go by the order of versions and cannot tell two
spellings apart. A glob goes by the text: it reaches the version that it is made
of, and of two spellings the shorter is out of reach for the longer.
-/

namespace PackageAlgebra

open Std (TransCmp)

-- ---------------------------------------------------------------------------
-- Versions under an operator
-- ---------------------------------------------------------------------------

namespace Version

theorem compareVersions_of_same {v w : Version} (h : v.same w = true) :
    compareVersions v w = .eq := by
  rw [same, beq_iff_eq] at h
  exact h

theorem compareBase_of_same {v w : Version} (h : v.same w = true) : compareBase v w = .eq :=
  (Ordering.then_eq_eq.mp (compareVersions_of_same h)).1

theorem matchesGlob_self (v : Version) : v.matchesGlob (toString v) = true :=
  (matchesGlob_toString_iff v v).mpr
    ⟨[], (List.append_nil _).symm, Text.cutsRun_of_stopsAt (Text.stopsAt_nil _)⟩

theorem exists_matchesGlob_ne {v w : Version} (h : v.chars ≠ w.chars) :
    ∃ u : Version, u.matchesGlob (toString v) ≠ u.matchesGlob (toString w) := by
  have hout : ∀ {v w : Version}, v.chars ≠ w.chars → v.chars.length ≤ w.chars.length →
      v.matchesGlob (toString w) = false := by
    intro v w hne hle
    cases hmatch : v.matchesGlob (toString w) with
    | false => rfl
    | true =>
      obtain ⟨rest, hjoin, -⟩ := (matchesGlob_toString_iff v w).mp hmatch
      have hreaches : w.chars <+: v.chars := ⟨rest, hjoin.symm⟩
      exact absurd (hreaches.eq_of_length_le hle).symm hne
  rcases Nat.le_total v.chars.length w.chars.length with hle | hle
  · exact ⟨v, by simp [matchesGlob_self, hout h hle]⟩
  · exact ⟨w, by simp [matchesGlob_self, hout (Ne.symm h) hle]⟩

end Version

/-- No operator but the glob can tell two spellings of a version apart. -/
theorem Operator.admits_congr {op : Operator} (hop : op ≠ .equalGlob) {v w : Version}
    (h : v.same w = true) (own : Version) : op.admits own v = op.admits own w := by
  have hversions : compare own v = compare own w :=
    TransCmp.congr_right (Version.compareVersions_of_same h)
  have hbases : Version.compareBase own v = Version.compareBase own w :=
    TransCmp.congr_right (Version.compareBase_of_same h)
  cases op with
  | equalGlob => exact absurd rfl hop
  | approximate => rw [admits, admits, Version.sameBase, Version.sameBase, hbases]
  | equal => rw [admits, admits, Version.same, Version.same, hversions]
  | _ => rw [admits, admits, hversions]

-- ---------------------------------------------------------------------------
-- Equal atoms
-- ---------------------------------------------------------------------------

namespace Atom

/-- If the atoms have globs, these are made of one text. -/
def GlobsSpelledAlike (a b : Atom) : Prop :=
  ∀ x ∈ a.bound, ∀ y ∈ b.bound, x.operator = .equalGlob → x.version.chars = y.version.chars

theorem same_iff {a b : Atom} :
    a.same b = true ↔ a.blocker = b.blocker ∧ a.key = b.key ∧
      Option.Rel (fun x y => x.same y = true) a.bound b.bound ∧ a.slot = b.slot ∧
      a.slotOperator = b.slotOperator ∧ a.repository = b.repository ∧
      a.useRequirements = b.useRequirements := by
  obtain ⟨_, _, bound, _, _, _, _⟩ := a
  obtain ⟨_, _, bound', _, _, _, _⟩ := b
  cases bound <;> cases bound' <;> simp [same, and_assoc]

theorem holdsFor_eq_of_same {a b : Atom} (h : a.same b = true) (halike : GlobsSpelledAlike a b)
    (i : Identity) : a.holdsFor i = b.holdsFor i := by
  obtain ⟨-, hkey, hbound, hslot, -, hrepository, -⟩ := same_iff.mp h
  have hadmits : (a.bound.all fun x => x.operator.admits i.version x.version) =
      b.bound.all fun y => y.operator.admits i.version y.version := by
    cases ha : a.bound with
    | none =>
      cases hb : b.bound with
      | none => rfl
      | some y => simp [ha, hb] at hbound
    | some x =>
      cases hb : b.bound with
      | none => simp [ha, hb] at hbound
      | some y =>
        rw [ha, hb, Option.rel_some_some, VersionBound.same, Bool.and_eq_true, beq_iff_eq] at hbound
        obtain ⟨hoperator, hversion⟩ := hbound
        show x.operator.admits i.version x.version = y.operator.admits i.version y.version
        rw [← hoperator]
        by_cases hglob : x.operator = .equalGlob
        · have htext : toString x.version = toString y.version :=
            congrArg String.ofList (halike x ha y hb hglob)
          rw [hglob, Operator.admits, Operator.admits, htext]
        · exact Operator.admits_congr hglob hversion i.version
  rw [holdsFor, holdsFor, keyMatches, keyMatches, hkey, hadmits, hslot, hrepository]

-- ---------------------------------------------------------------------------
-- Packages that tell globs apart
-- ---------------------------------------------------------------------------

def specimen (a : Atom) (v : Version) : PackageRecord :=
  { PackageRecord.bare a.key v with
    slot := a.slot.elim "0" (·.name)
    subslot := a.slot.bind (·.subslot)
    repository := a.repository }

theorem holdsFor_specimen (a : Atom) (v : Version) :
    a.holdsFor (a.specimen v).identity =
      a.bound.all fun b => b.operator.admits v b.version := by
  have hkey : a.keyMatches (a.specimen v).identity.key = true := by
    simp [keyMatches, specimen, PackageRecord.identity, PackageRecord.bare]
  have hslot : (a.slot.all fun s => (a.specimen v).identity.slot == s.name &&
      s.subslot.all ((a.specimen v).identity.subslot == ·)) = true := by
    cases hs : a.slot with
    | none => rfl
    | some s => cases hsub : s.subslot <;> simp [specimen, PackageRecord.identity, hs, hsub]
  have hrepository :
      (a.repository.all fun r => (a.specimen v).identity.repository == some r) = true := by
    cases hr : a.repository <;> simp [specimen, PackageRecord.identity, hr]
  rw [holdsFor, hkey, hslot, hrepository, Bool.true_and, Bool.and_true, Bool.and_true]
  rfl

theorem contains_specimen {a : Atom} {b : VersionBound} (h : a.bound = some b) (v : Version) :
    a.contains (a.specimen v) = (b.operator.admits v b.version != a.isBlocking) := by
  show (a.holdsFor (a.specimen v).identity != a.isBlocking) = _
  rw [holdsFor_specimen, h]
  rfl

/-- Equal atoms contain the same packages, unless they are globs that are spelled differently: then
some package is contained in one of them only. -/
theorem contains_of_same {a b : Atom} (h : a.same b = true) :
    (GlobsSpelledAlike a b → ∀ {P : Type} [Package P] (p : P), a.contains p = b.contains p) ∧
      (¬GlobsSpelledAlike a b → ∃ r : PackageRecord, a.contains r ≠ b.contains r) := by
  obtain ⟨hblocker, hkey, hbound, hslot, -, hrepository, -⟩ := same_iff.mp h
  have hblocking : a.isBlocking = b.isBlocking := by rw [isBlocking, isBlocking, hblocker]
  constructor
  · intro halike P _ p
    rw [contains, contains, holdsFor_eq_of_same h halike, hblocking]
  · intro hglobs
    simp only [GlobsSpelledAlike, Classical.not_forall] at hglobs
    obtain ⟨x, hx, y, hy, hglob, hne⟩ := hglobs
    obtain ⟨v, hv⟩ := Version.exists_matchesGlob_ne hne
    have hspecimen : a.specimen v = b.specimen v := by
      rw [specimen, specimen, hkey, hslot, hrepository]
    have hoperator : x.operator = y.operator := by
      rw [hx, hy, Option.rel_some_some, VersionBound.same, Bool.and_eq_true, beq_iff_eq] at hbound
      exact hbound.1
    refine ⟨a.specimen v, fun heq => hv ?_⟩
    rw [contains_specimen hx, hspecimen, contains_specimen hy, ← hoperator, hglob, hblocking] at heq
    simpa [Operator.admits] using heq

/-- Both spell one version, and the blockers leave the same packages. -/
theorem contains_of_same_respelled :
    ∃ a b, parse "!>=a/b-1.0_p:2" = .ok a ∧ parse "!>=a/b-1.00_p0-r0:2" = .ok b ∧
      a.same b = true ∧ ∀ r : PackageRecord, a.contains r = b.contains r := by
  obtain ⟨a, b, ha, hb, hsame, hbound⟩ :
      ∃ a b, parse "!>=a/b-1.0_p:2" = .ok a ∧ parse "!>=a/b-1.00_p0-r0:2" = .ok b ∧
        a.same b = true ∧ a.bound.map (·.operator) = some .greaterOrEqual :=
    ⟨_, _, rfl, rfl, rfl, rfl⟩
  have halike : GlobsSpelledAlike a b := by
    intro x hx y _ hglob
    rw [hx, Option.map_some, hglob] at hbound
    cases hbound
  exact ⟨a, b, ha, hb, hsame, fun r => (contains_of_same hsame).1 halike r⟩

/-- `1.0` and `1.00` are one version, but only the first is within reach of its own glob. -/
theorem equal_globs_differ :
    ∃ a b v, parse "=a/b-1.0*" = .ok a ∧ parse "=a/b-1.00*" = .ok b ∧ toString v = "1.0" ∧
      a.same b = true ∧ a.contains (PackageRecord.bare ⟨some "a", "b"⟩ v) = true ∧
      b.contains (PackageRecord.bare ⟨some "a", "b"⟩ v) = false :=
  ⟨_, _, ⟨⟨['1'], rfl⟩, [⟨['0'], rfl⟩], none, [], 0⟩, rfl, rfl, rfl, rfl, rfl, rfl⟩

end Atom

end PackageAlgebra
