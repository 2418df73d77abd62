import Mathlib.Logic.ExistsUnique
import PackageAlgebra.Atom.Basic
import PackageAlgebra.Package.Record.Attributes
import PackageAlgebra.Proofs.Atom.RoundTrip
import PackageAlgebra.Proofs.Version.Grammar
import PackageAlgebra.Proofs.Version.Order

/-!
# The scale of the operators

The atoms that bound the versions of one key cut its packages along the order of
versions. `<`, `=` and `>` are the three parts of a cut, the others are unions
of these or stretches between two cuts.
-/

namespace PackageAlgebra

open Std (TransCmp)

-- ---------------------------------------------------------------------------
-- Revisions of a version
-- ---------------------------------------------------------------------------

namespace Version

def withRevision (v : Version) (n : UInt64) : Version :=
  { v with revision := n }

theorem compare_withRevision (v w : Version) (n : UInt64) :
    compare v (w.withRevision n) = (compareBase v w).then (compare v.revision n) :=
  rfl

/-- The versions of one base lie between its first and its last revision, and no others do. -/
theorem sameBase_iff (v w : Version) :
    v.sameBase w = true ↔ (compare v (w.withRevision 0)).isGE = true ∧
      (compare v (w.withRevision 18446744073709551615)).isLE = true := by
  have hfirst : (compare v.revision 0).isGE = true := Std.isGE_compare.mpr UInt64.zero_le
  have hlast : (compare v.revision 18446744073709551615).isLE = true :=
    Std.isLE_compare.mpr (UInt64.le_iff_toNat_le.mpr (Nat.le_of_lt_succ v.revision.toNat_lt))
  rw [compare_withRevision, compare_withRevision, sameBase]
  cases compareBase v w with
  | lt => simp
  | eq => simp [hfirst, hlast]
  | gt => simp

theorem parse_base_append (v : Version) (digits : List Char) {n : UInt64}
    (hrun : IsRun Text.isDigit digits) (hn : Text.numberOf digits = n.toNat) :
    parse (v.base ++ String.ofList ('-' :: 'r' :: digits)) = .ok (v.withRevision n) := by
  have htext : v.base ++ String.ofList ('-' :: 'r' :: digits) =
      (v.withRevision n).base ++ "-r" ++ String.ofList digits := by
    rw [← String.toList_inj]
    simp [String.toList_append, base, baseChars, withRevision]
  rw [htext, parse_eq_ok_iff]
  exact .revision hrun hn

variable {v w : Version}

/-- The text of a base is that of one version only, which has no revision. -/
theorem withRevision_zero_of_base (h : v.base = w.base) : v.withRevision 0 = w.withRevision 0 := by
  have hv : parse v.base = .ok (v.withRevision 0) := (parse_eq_ok_iff _ _).mpr (.base rfl)
  have hw : parse w.base = .ok (w.withRevision 0) := (parse_eq_ok_iff _ _).mpr (.base rfl)
  rw [h, hw, Except.ok.injEq] at hv
  exact hv.symm

theorem sameBase_congr {v' w' : Version} (hv : v.base = v'.base) (hw : w.base = w'.base) :
    v.sameBase w = v'.sameBase w' := by
  show (v.withRevision 0).sameBase (w.withRevision 0) = v'.sameBase w'
  rw [withRevision_zero_of_base hv, withRevision_zero_of_base hw]
  rfl

end Version

-- ---------------------------------------------------------------------------
-- Versions under an operator
-- ---------------------------------------------------------------------------

namespace Operator

def cuts : List Operator :=
  [.less, .equal, .greater]

theorem existsUnique_cut (own wanted : Version) :
    ∃! op, op ∈ cuts ∧ op.admits own wanted = true := by
  cases h : compare own wanted with
  | lt =>
    refine ⟨.less, by simp [cuts, admits, h], ?_⟩
    rintro op ⟨hop, hadmits⟩
    cases op <;> simp [cuts, admits, Version.same, h] at hop hadmits ⊢
  | eq =>
    refine ⟨.equal, by simp [cuts, admits, Version.same, h], ?_⟩
    rintro op ⟨hop, hadmits⟩
    cases op <;> simp [cuts, admits, Version.same, h] at hop hadmits ⊢
  | gt =>
    refine ⟨.greater, by simp [cuts, admits, h], ?_⟩
    rintro op ⟨hop, hadmits⟩
    cases op <;> simp [cuts, admits, Version.same, h] at hop hadmits ⊢

theorem admits_lessOrEqual (own wanted : Version) :
    lessOrEqual.admits own wanted = (less.admits own wanted || equal.admits own wanted) := by
  rw [admits, admits, admits, Version.same]
  cases compare own wanted <;> rfl

theorem admits_greaterOrEqual (own wanted : Version) :
    greaterOrEqual.admits own wanted = !less.admits own wanted := by
  rw [admits, admits]
  cases compare own wanted <;> rfl

variable {v w : Version}

theorem admits_less_mono (h : (compare v w).isLE = true) {own : Version}
    (hless : less.admits own v = true) : less.admits own w = true := by
  rw [admits, Ordering.isLT_iff_eq_lt] at hless ⊢
  exact TransCmp.lt_of_lt_of_isLE hless h

theorem admits_greaterOrEqual_anti (h : (compare v w).isLE = true) {own : Version}
    (hge : greaterOrEqual.admits own w = true) : greaterOrEqual.admits own v = true := by
  rw [admits_greaterOrEqual, Bool.not_eq_true'] at hge ⊢
  cases hless : less.admits own v with
  | false => rfl
  | true =>
    rw [admits_less_mono h hless] at hge
    cases hge

end Operator

-- ---------------------------------------------------------------------------
-- Atoms that bound the versions of a key
-- ---------------------------------------------------------------------------

namespace Atom

/-- The text of an atom such as `!>=a/b-1.2`. -/
def boundText (blocker : Option Blocker) (op : Operator) (key : PackageKey) (version : String) :
    String :=
  String.ofList (blocker.elim [] Blocker.chars ++ (op.sign ++ (key.chars ++ '-' :: version.toList)))

def ofBound (blocker : Option Blocker) (op : Operator) (key : PackageKey) (version : Version) :
    Atom :=
  { ofKey key with blocker, bound := some ⟨op, version⟩ }

/-- The text is an atom, and the package is among those that it describes. -/
def Describes {P : Type} [Package P] (text : String) (p : P) : Prop :=
  ∃ a, parse text = .ok a ∧ a.contains p = true

section

variable {op : Operator} {key : PackageKey} {text : String} {v : Version}

theorem parse_boundText (blocker : Option Blocker) (hop : op ≠ .equalGlob) (hkey : key.WellFormed)
    (hversion : Version.parse text = .ok v) :
    parse (boundText blocker op key text) = .ok (ofBound blocker op key v) := by
  obtain ⟨c, cs, hcs, hc⟩ := PackageKey.chars_eq_cons hkey
  have hstart : ∃ c cs, key.chars ++ '-' :: text.toList = c :: cs ∧ Text.isNameStart c = true :=
    ⟨c, cs ++ '-' :: text.toList, by rw [hcs, List.cons_append], hc⟩
  have hbody : ∀ c ∈ key.chars ++ '-' :: text.toList, Text.isPartChar c = true ∨ c = '/' := by
    intro c hc
    rw [List.mem_append, List.mem_cons] at hc
    rcases hc with hc | rfl | hc
    · exact PackageKey.isPartChar_of_mem_chars hkey c hc
    · exact .inl (by decide)
    · exact .inl (Version.isPartChar_of_parse hversion c hc)
  have hread := read_unmarked blocker (some ⟨op, v⟩) hstart hbody
  have hsplit : splitVersion (key.chars ++ '-' :: text.toList) = some (key.chars, v) :=
    splitVersion_append (by rw [String.ofList_toList, hversion]) (by simp [hcs])
  simp only [Option.elim_some, signOperator, Option.map_some, if_neg hop, readBound, hsplit,
    readKey_chars hkey, bind, Except.bind] at hread
  rw [parse, boundText, String.toList_ofList, hread]
  rfl

variable {P : Type} [Package P] {p : P}

theorem describes_iff {a : Atom} (h : parse text = .ok a) :
    Describes text p ↔ a.contains p = true := by
  simp [Describes, h]

theorem contains_ofBound (blocker : Option Blocker) :
    (ofBound blocker op key v).contains p =
      (((ofKey key).keyMatches (Package.key p) && op.admits (Package.identity p).version v) !=
        blocker.isSome) := by
  have hholds : (ofBound blocker op key v).holdsFor (Package.identity p) =
      ((ofKey key).keyMatches (Package.key p) && op.admits (Package.identity p).version v) := by
    rw [holdsFor, ofBound]
    simp only [ofKey, Option.all_some, Option.all_none, Bool.and_true]
    rfl
  rw [contains, hholds]
  rfl

theorem describes_boundText (hop : op ≠ .equalGlob) (hkey : key.WellFormed)
    (hp : Package.key p = key) (hversion : Version.parse text = .ok v) :
    Describes (boundText none op key text) p ↔ op.admits (Package.identity p).version v = true := by
  have hmatches : (ofKey key).keyMatches (Package.key p) = true := by
    simp [hp, keyMatches, ofKey]
  rw [describes_iff (parse_boundText none hop hkey hversion), contains_ofBound, hmatches]
  simp

/-- A blocker describes the packages that the atom behind it does not. -/
theorem describes_boundText_blocker (b : Blocker) (hop : op ≠ .equalGlob) (hkey : key.WellFormed)
    (hversion : Version.parse text = .ok v) :
    Describes (boundText (some b) op key text) p ↔ ¬Describes (boundText none op key text) p := by
  have hturn : (ofBound (some b) op key v).contains p = !(ofBound none op key v).contains p := by
    rw [contains_ofBound, contains_ofBound, Option.isSome_some, Option.isSome_none,
      Bool.bne_true, Bool.bne_false]
  rw [describes_iff (parse_boundText (some b) hop hkey hversion),
    describes_iff (parse_boundText none hop hkey hversion), hturn, Bool.not_eq_true',
    Bool.not_eq_true]

end

-- ---------------------------------------------------------------------------
-- The scale
-- ---------------------------------------------------------------------------

/-- Where a package stands on the scale of the versions of a key, and how the operators tell.
Versions are spelled in any way. -/
structure OnScale {P : Type} [Package P] (key : PackageKey) (p : P) : Prop where
  cut : ∀ {text v}, Version.parse text = .ok v →
    ∃! op, op ∈ Operator.cuts ∧ Describes (boundText none op key text) p
  lessOrEqual_iff : ∀ {text v}, Version.parse text = .ok v →
    (Describes (boundText none .lessOrEqual key text) p ↔
      Describes (boundText none .less key text) p ∨ Describes (boundText none .equal key text) p)
  greaterOrEqual_iff : ∀ {text v}, Version.parse text = .ok v →
    (Describes (boundText none .greaterOrEqual key text) p ↔
      ¬Describes (boundText none .less key text) p)
  less_mono : ∀ {text v text' v'}, Version.parse text = .ok v → Version.parse text' = .ok v' →
    (compare v v').isLE = true → Describes (boundText none .less key text) p →
      Describes (boundText none .less key text') p
  greaterOrEqual_anti : ∀ {text v text' v'}, Version.parse text = .ok v →
    Version.parse text' = .ok v' → (compare v v').isLE = true →
      Describes (boundText none .greaterOrEqual key text') p →
        Describes (boundText none .greaterOrEqual key text) p
  approximate_iff : ∀ {text v}, Version.parse text = .ok v →
    (Describes (boundText none .approximate key text) p ↔
      Describes (boundText none .greaterOrEqual key (v.base ++ "-r0")) p ∧
        Describes (boundText none .lessOrEqual key (v.base ++ "-r18446744073709551615")) p)
  /-- Neither the revision of the atom nor that of the package counts. -/
  approximate_revision : ∀ {text v text' v'} {q : P}, Version.parse text = .ok v →
    Version.parse text' = .ok v' → v.base = v'.base → Package.key q = key →
      (Package.identity p).version.base = (Package.identity q).version.base →
        (Describes (boundText none .approximate key text) p ↔
          Describes (boundText none .approximate key text') q)

theorem onScale_of_key {P : Type} [Package P] {key : PackageKey} {p : P} (hkey : key.WellFormed)
    (hp : Package.key p = key) : OnScale key p where
  cut := by
    intro text v hversion
    have hcuts : ∀ op, (op ∈ Operator.cuts ∧ Describes (boundText none op key text) p) ↔
        op ∈ Operator.cuts ∧ op.admits (Package.identity p).version v = true := by
      intro op
      refine and_congr_right fun hop => describes_boundText ?_ hkey hp hversion
      rintro rfl
      exact absurd hop (by decide)
    simp only [hcuts]
    exact Operator.existsUnique_cut _ _
  lessOrEqual_iff := by
    intro text v hversion
    rw [describes_boundText (by decide) hkey hp hversion,
      describes_boundText (by decide) hkey hp hversion,
      describes_boundText (by decide) hkey hp hversion, Operator.admits_lessOrEqual,
      Bool.or_eq_true]
  greaterOrEqual_iff := by
    intro text v hversion
    rw [describes_boundText (by decide) hkey hp hversion,
      describes_boundText (by decide) hkey hp hversion, Operator.admits_greaterOrEqual]
    simp
  less_mono := by
    intro text v text' v' hversion hversion' hle hless
    rw [describes_boundText (by decide) hkey hp hversion] at hless
    rw [describes_boundText (by decide) hkey hp hversion']
    exact Operator.admits_less_mono hle hless
  greaterOrEqual_anti := by
    intro text v text' v' hversion hversion' hle hge
    rw [describes_boundText (by decide) hkey hp hversion'] at hge
    rw [describes_boundText (by decide) hkey hp hversion]
    exact Operator.admits_greaterOrEqual_anti hle hge
  approximate_iff := by
    intro text v hversion
    have hfirst : Version.parse (v.base ++ "-r0") = .ok (v.withRevision 0) :=
      v.parse_base_append ['0'] ⟨by decide, List.all_eq_true.mp rfl⟩ rfl
    have hlast : Version.parse (v.base ++ "-r18446744073709551615") =
        .ok (v.withRevision 18446744073709551615) :=
      v.parse_base_append "18446744073709551615".toList ⟨by decide, List.all_eq_true.mp rfl⟩ rfl
    rw [describes_boundText (by decide) hkey hp hversion,
      describes_boundText (by decide) hkey hp hfirst, describes_boundText (by decide) hkey hp hlast]
    exact Version.sameBase_iff _ _
  approximate_revision := by
    intro text v text' v' q hversion hversion' hbase hq hown
    rw [describes_boundText (by decide) hkey hp hversion,
      describes_boundText (by decide) hkey hq hversion', Operator.admits, Operator.admits,
      Version.sameBase_congr hown hbase]

/-- The atoms that bound the versions of a key are read from their texts. They put the packages of
the key on one scale, and blockers describe the packages left over. -/
theorem bounds_form_scale {key : PackageKey} (hkey : key.WellFormed) :
    (∀ blocker op {text v}, op ≠ .equalGlob → Version.parse text = .ok v →
        parse (boundText blocker op key text) = .ok (ofBound blocker op key v)) ∧
      (∀ {P : Type} [Package P] (p : P), Package.key p = key → OnScale key p) ∧
      ∀ {P : Type} [Package P] (p : P) b op {text v}, op ≠ .equalGlob →
        Version.parse text = .ok v →
          (Describes (boundText (some b) op key text) p ↔
            ¬Describes (boundText none op key text) p) := by
  refine ⟨?_, ?_, ?_⟩
  · intro blocker op text v hop hversion
    exact parse_boundText blocker hop hkey hversion
  · intro P _ p hp
    exact onScale_of_key hkey hp
  · intro P _ p b op text v hop hversion
    exact describes_boundText_blocker b hop hkey hversion

theorem bounds_form_scale_revision :
    ∃ v w, Version.parse "1.2-r3" = .ok v ∧ Version.parse "1.2-r7" = .ok w ∧
      let p := PackageRecord.bare ⟨some "a", "b"⟩ v
      OnScale p.key p ∧ Describes "~a/b-1.2-r7" p ∧ Describes ">=a/b-1.2-r0" p ∧
        Describes "<=a/b-1.2-r18446744073709551615" p ∧ ¬Describes "!!~a/b-1.2-r7" p := by
  obtain ⟨v, w, hv, hw, hbase, happroximate⟩ :
      ∃ v w, Version.parse "1.2-r3" = .ok v ∧ Version.parse "1.2-r7" = .ok w ∧ w.base = "1.2" ∧
        Describes "~a/b-1.2-r7" (PackageRecord.bare ⟨some "a", "b"⟩ v) :=
    ⟨_, _, rfl, rfl, rfl, _, rfl, rfl⟩
  have hkey : PackageKey.parse "a/b" = .ok ⟨some "a", "b"⟩ := rfl
  obtain ⟨-, hscale, hblocker⟩ := bounds_form_scale (PackageKey.wellFormed_of_parse hkey)
  have hrecord := hscale (PackageRecord.bare ⟨some "a", "b"⟩ v) rfl
  have hbetween := hrecord.approximate_iff hw
  rw [hbase] at hbetween
  obtain ⟨hfirst, hlast⟩ := hbetween.mp happroximate
  have hblocked :=
    hblocker (PackageRecord.bare ⟨some "a", "b"⟩ v) .strong .approximate (by decide) hw
  exact ⟨v, w, hv, hw, hrecord, happroximate, hfirst, hlast, fun h => hblocked.mp h happroximate⟩

end Atom

end PackageAlgebra
