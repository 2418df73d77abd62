import PackageAlgebra.Package.Record.Attributes
import PackageAlgebra.Proofs.Atom.Spelling

/-!
# Atoms made from a key alone

The name that is left in front of a version can end in a version itself, as in
`=a-1-2`; printed alone, it looks like a version that lacks its operator.
-/

namespace PackageAlgebra

/-- The name of the key goes on with a version behind one of its hyphens, up to its end. -/
def PackageKey.EndsInVersion (key : PackageKey) : Prop :=
  ∃ front text v, key.name.toList = front ++ '-' :: text ∧
    Version.parse (String.ofList text) = .ok v

namespace Atom

-- ---------------------------------------------------------------------------
-- Keys that end in a version
-- ---------------------------------------------------------------------------

theorem endsInVersion_of_chars {key : PackageKey} {front text : List Char} {v : Version}
    (h : key.chars = front ++ '-' :: text) (hparse : Version.parse (String.ofList text) = .ok v) :
    key.EndsInVersion := by
  obtain ⟨category, name⟩ := key
  cases category with
  | none => exact ⟨front, text, v, h, hparse⟩
  | some category =>
    have hslash : '/' ∉ text := by
      have hchars := Version.isPartChar_of_parse hparse
      rw [String.toList_ofList] at hchars
      exact Text.not_mem_of_isPartChar hchars (by decide)
    have h : category.toList ++ '/' :: name.toList = front ++ '-' :: text := h
    rcases List.append_eq_append_iff.mp h with ⟨cs, hcs, hname⟩ | ⟨cs, hcs, htext⟩
    · cases cs with
      | nil => cases hname
      | cons c cs =>
        rw [List.cons_append, List.cons.injEq] at hname
        exact ⟨cs, text, v, hname.2, hparse⟩
    · cases cs with
      | nil => cases htext
      | cons c cs =>
        rw [List.cons_append, List.cons.injEq] at htext
        exact absurd (by simp [htext.2]) hslash

theorem chars_of_endsInVersion {key : PackageKey} (h : key.WellFormed) (hends : key.EndsInVersion) :
    ∃ front text v, front ≠ [] ∧ key.chars = front ++ '-' :: text ∧
      Version.parse (String.ofList text) = .ok v := by
  obtain ⟨front, text, v, hname, hparse⟩ := hends
  rw [PackageKey.chars]
  split
  next category _ =>
    exact ⟨category.toList ++ '/' :: front, text, v, by simp, by simp [hname], hparse⟩
  next =>
    refine ⟨front, text, v, ?_, hname, hparse⟩
    rintro rfl
    obtain ⟨c, cs, hcs, hc⟩ := Text.isNameWith_eq_cons h.name
    rw [hname, List.nil_append, List.cons.injEq] at hcs
    exact absurd (hcs.1 ▸ hc) (by decide)

theorem splitVersion_chars_eq_none_iff {key : PackageKey} (h : key.WellFormed) :
    splitVersion key.chars = none ↔ ¬key.EndsInVersion := by
  constructor
  · intro hnone hends
    obtain ⟨front, text, v, hfront, hchars, hparse⟩ := chars_of_endsInVersion h hends
    rw [hchars, splitVersion_append hparse hfront] at hnone
    cases hnone
  · intro hends
    match hsplit : splitVersion key.chars with
    | none => rfl
    | some (front, v) =>
      obtain ⟨text, hjoin, hparse⟩ := join_of_splitVersionFrom hsplit
      exact absurd (endsInVersion_of_chars hjoin.symm hparse) hends

-- ---------------------------------------------------------------------------
-- The atom of a key
-- ---------------------------------------------------------------------------

theorem chars_ofKey (key : PackageKey) : (ofKey key).chars = key.chars := by
  simp [chars, ofKey, slotChars]

theorem read_key_chars {key : PackageKey} (h : key.WellFormed) :
    read key.chars = match splitVersion key.chars with
      | some _ => .error .versionWithoutOperator
      | none => .ok (ofKey key) := by
  have hread := read_unmarked none none (PackageKey.chars_eq_cons h)
    (PackageKey.isPartChar_of_mem_chars h)
  rw [Option.elim_none, Option.elim_none, List.nil_append, List.nil_append] at hread
  rw [hread]
  simp only [signOperator, Option.map_none, readBound, bind, Except.bind]
  cases splitVersion key.chars with
  | some found => rfl
  | none =>
    simp only [readKey_chars h]
    rfl

/-- The atom of a key has a text that is read as it, unless the key ends in a version. Then the
version is taken off, and it lacks an operator. -/
theorem parse_ofKey {key : PackageKey} (h : key.WellFormed) :
    (¬key.EndsInVersion → parse (toString (ofKey key)) = .ok (ofKey key)) ∧
      (key.EndsInVersion → parse (toString (ofKey key)) =
        .error (.atom .versionWithoutOperator (toString (ofKey key)))) := by
  have htext : toString (ofKey key) = String.ofList key.chars :=
    congrArg String.ofList (chars_ofKey key)
  rw [htext, parse, String.toList_ofList, read_key_chars h]
  constructor
  · intro hends
    rw [(splitVersion_chars_eq_none_iff h).mpr hends]
  · intro hends
    obtain ⟨found, hfound⟩ := Option.ne_none_iff_exists'.mp
      fun hnone => (splitVersion_chars_eq_none_iff h).mp hnone hends
    rw [hfound]

/-- Only an operator lets an atom have a key that ends in a version. -/
theorem not_endsInVersion_of_parse {text : String} {a : Atom} (h : parse text = .ok a)
    (hbound : a.bound = none) : ¬a.key.EndsInVersion := by
  obtain ⟨hwell, -⟩ := read_ok (read_of_parse h)
  exact (splitVersion_chars_eq_none_iff hwell.key).mp (hwell.unbounded hbound)

-- ---------------------------------------------------------------------------
-- Derived atoms
-- ---------------------------------------------------------------------------

/-- The atoms that are made from the key of an atom or of a package, where that key was read. -/
inductive IsDerived : Atom → Prop
  | unversioned {text : String} {a : Atom} : parse text = .ok a → IsDerived a.unversioned
  | ofPackage {P : Type} [Package P] {text : String} (p : P) :
      PackageKey.parse text = .ok (Package.key p) → IsDerived (ofKey (Package.key p))

theorem IsDerived.eq_ofKey {a : Atom} (h : a.IsDerived) : a = ofKey a.key ∧ a.key.WellFormed := by
  cases h with
  | unversioned hparse => exact ⟨rfl, (read_ok (read_of_parse hparse)).1.key⟩
  | ofPackage p hparse => exact ⟨rfl, PackageKey.wellFormed_of_parse hparse⟩

/-- A derived atom is read back from its text if its key does not end in a version, and its text
is no atom if the key does. -/
theorem parse_of_isDerived {a : Atom} (h : a.IsDerived) :
    (¬a.key.EndsInVersion → parse (toString a) = .ok a) ∧
      (a.key.EndsInVersion →
        parse (toString a) = .error (.atom .versionWithoutOperator (toString a))) := by
  obtain ⟨hkey, hwell⟩ := h.eq_ofKey
  rw [hkey]
  exact parse_ofKey hwell

/-- The version behind the second hyphen leaves a key that the atom and its package share. -/
theorem parse_of_isDerived_hyphens :
    ∃ a v, parse ">=a/b-c-1" = .ok a ∧ a.unversioned.IsDerived ∧
      parse (toString a.unversioned) = .ok a.unversioned ∧
      let p := PackageRecord.bare ⟨some "a", "b-c"⟩ v
      PackageKey.parse "a/b-c" = .ok p.key ∧ (ofKey (Package.key p)).IsDerived ∧
        parse (toString (ofKey (Package.key p))) = .ok (ofKey (Package.key p)) := by
  have hatom : parse ">=a/b-c-1" = .ok { ofKey ⟨some "a", "b-c"⟩ with
      bound := some ⟨.greaterOrEqual, ⟨⟨['1'], rfl⟩, [], none, [], 0⟩⟩ } := rfl
  have hkey : PackageKey.parse "a/b-c" = .ok ⟨some "a", "b-c"⟩ := rfl
  have hplain : parse "a/b-c" = .ok (ofKey ⟨some "a", "b-c"⟩) := rfl
  have hends := not_endsInVersion_of_parse hplain rfl
  have hpackage := IsDerived.ofPackage
    (PackageRecord.bare ⟨some "a", "b-c"⟩ ⟨⟨['1'], rfl⟩, [], none, [], 0⟩) hkey
  exact ⟨_, _, hatom, .unversioned hatom, (parse_of_isDerived (.unversioned hatom)).1 hends, hkey,
    hpackage, (parse_of_isDerived hpackage).1 hends⟩

theorem parse_unversioned_hyphens :
    ∃ a, parse "=a-1-2" = .ok a ∧ toString a.unversioned = "a-1" ∧
      parse "a-1" = .error (.atom .versionWithoutOperator "a-1") :=
  ⟨_, rfl, rfl, rfl⟩

end Atom

end PackageAlgebra
