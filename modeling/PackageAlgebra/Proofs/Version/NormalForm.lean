import Mathlib.Data.List.DropRight
import Mathlib.Data.List.Forall2
import PackageAlgebra.Proofs.Version.Order

/-!
# Equal versions

Versions are equal if they differ in nothing but zeros that do not count: those
in front of the first number or of a suffix's number, and those at the end of a
later number that begins with zero. `normal` leaves them out.
-/

namespace PackageAlgebra

open Std (LawfulEqCmp TransCmp OrientedCmp)

theorem compareLex_eq_iff {cmp : α → α → Ordering} {xs ys : List α} :
    List.compareLex cmp xs ys = .eq ↔ List.Forall₂ (fun x y => cmp x y = .eq) xs ys := by
  induction xs generalizing ys with
  | nil => cases ys <;> simp [List.compareLex]
  | cons x xs ih =>
    cases ys with
    | nil => simp [List.compareLex]
    | cons y ys => simp [List.compareLex_cons_cons, Ordering.then_eq_eq, ih]

theorem map_eq_of_forall₂ {R : α → α → Prop} {f : α → β} {xs ys : List α}
    (hf : ∀ x y, R x y → f x = f y) (h : List.Forall₂ R xs ys) : xs.map f = ys.map f := by
  induction h with
  | nil => rfl
  | cons hxy _ ih => rw [List.map_cons, List.map_cons, hf _ _ hxy, ih]

theorem Numeral.chars_inj {a b : Numeral} : a.chars = b.chars ↔ a = b := by
  cases a
  cases b
  simp

theorem Letter.char_inj {a b : Letter} : a.char = b.char ↔ a = b := by
  cases a
  cases b
  simp

theorem SuffixKind.rank_inj {a b : SuffixKind} : a.rank = b.rank ↔ a = b := by
  cases a <;> cases b <;> simp [rank]

namespace Version

-- ---------------------------------------------------------------------------
-- What compares equal
-- ---------------------------------------------------------------------------

theorem compareIntegers_eq_iff {a b : List Char} :
    compareIntegers a b = .eq ↔ dropZeros a = dropZeros b := by
  simp only [compareIntegers, Ordering.then_eq_eq, LawfulEqCmp.compare_eq_iff_eq]
  exact ⟨And.right, fun h => ⟨congrArg byteLength h, h⟩⟩

/-- Two later numbers that count as one: spelled alike, or digits behind one point. -/
def SameMinor (a b : Numeral) : Prop :=
  a = b ∨ leadsWithZero a = true ∧ leadsWithZero b = true ∧
    dropTrailingZeros a.chars = dropTrailingZeros b.chars

theorem dropZeros_of_not_leadsWithZero {a : Numeral} (h : leadsWithZero a = false) :
    dropZeros a.chars = a.chars := by
  obtain ⟨c, cs, hcs, -⟩ := a.chars_eq_cons
  have hc : c ≠ '0' := by simpa [leadsWithZero, hcs] using h
  simp [dropZeros, hcs, hc]

theorem compareMinor_eq_iff {a b : Numeral} : compareMinor a b = .eq ↔ SameMinor a b := by
  have hhead : ∀ n : Numeral, n.chars.head? = some '0' ↔ leadsWithZero n = true := by
    simp [leadsWithZero]
  simp only [compareMinor, hhead, SameMinor]
  cases ha : leadsWithZero a <;> cases hb : leadsWithZero b
  case false.false =>
    simp [compareIntegers_eq_iff, dropZeros_of_not_leadsWithZero, ha, hb, Numeral.chars_inj]
  case true.true =>
    have hself : a = b → dropTrailingZeros a.chars = dropTrailingZeros b.chars := by
      rintro rfl
      rfl
    simpa using hself
  -- a number that leads with zero is less than one that does not
  case true.false =>
    have hlt := compare_dropTrailingZeros_lt ha hb
    have hne : a ≠ b := by
      rintro rfl
      simp [ha] at hb
    simp [hlt, hne]
  case false.true =>
    have hgt := OrientedCmp.gt_of_lt (compare_dropTrailingZeros_lt hb ha)
    have hne : a ≠ b := by
      rintro rfl
      simp [ha] at hb
    simp [hgt, hne]

/-- Suffixes of one kind, with one number. A number that is left out is zero. -/
def SameSuffix (s t : Suffix) : Prop :=
  s.kind = t.kind ∧ dropZeros s.digits = dropZeros t.digits

theorem compareSuffix_eq_iff {s t : Suffix} : compareSuffix s t = .eq ↔ SameSuffix s t := by
  simp [compareSuffix, Ordering.then_eq_eq, compareIntegers_eq_iff, SuffixKind.rank_inj, SameSuffix]

theorem compareSuffixes_eq_iff {ss ts : List Suffix} :
    compareSuffixes ss ts = .eq ↔ List.Forall₂ SameSuffix ss ts := by
  induction ss generalizing ts with
  | nil =>
    cases ts with
    | nil => simp [compareSuffixes]
    | cons t ts => cases ht : t.kind <;> simp [compareSuffixes, ht]
  | cons s ss ih =>
    cases ts with
    | nil => cases hs : s.kind <;> simp [compareSuffixes, hs]
    | cons t ts =>
      simp [compareSuffixes, Ordering.then_eq_eq, compareSuffix_eq_iff, ih]

theorem compareLetters_eq_iff {a b : Option Letter} : compareLetters a b = .eq ↔ a = b := by
  rw [compareLetters, LawfulEqCmp.compare_eq_iff_eq]
  cases a <;> cases b <;> simp [Letter.char_inj]

/-- The versions differ in nothing but zeros that do not count. -/
structure SameParts (v w : Version) : Prop where
  major : dropZeros v.major.chars = dropZeros w.major.chars
  minors : List.Forall₂ SameMinor v.minors w.minors
  letter : v.letter = w.letter
  suffixes : List.Forall₂ SameSuffix v.suffixes w.suffixes
  revision : v.revision = w.revision

theorem same_iff_sameParts {v w : Version} : v.same w = true ↔ SameParts v w := by
  have hstages : compareVersions v w = .eq ↔
      (dropZeros v.major.chars = dropZeros w.major.chars ∧
        List.Forall₂ SameMinor v.minors w.minors ∧ v.letter = w.letter ∧
          List.Forall₂ SameSuffix v.suffixes w.suffixes) ∧ v.revision = w.revision := by
    simp only [compareVersions, compareBase, compareMinors, Ordering.then_eq_eq,
      compareIntegers_eq_iff, compareLex_eq_iff, compareMinor_eq_iff, compareLetters_eq_iff,
      compareSuffixes_eq_iff, LawfulEqCmp.compare_eq_iff_eq]
  rw [same, beq_iff_eq]
  constructor
  · intro h
    obtain ⟨⟨hmajor, hminors, hletter, hsuffixes⟩, hrevision⟩ := hstages.mp h
    exact ⟨hmajor, hminors, hletter, hsuffixes, hrevision⟩
  · rintro ⟨hmajor, hminors, hletter, hsuffixes, hrevision⟩
    exact hstages.mpr ⟨⟨hmajor, hminors, hletter, hsuffixes⟩, hrevision⟩

-- ---------------------------------------------------------------------------
-- The normal form
-- ---------------------------------------------------------------------------

/-- The number with these digits. Where there are none it is zero. -/
def numeralOf (cs : List Char) : Numeral :=
  (Numeral.read? cs).getD ⟨['0'], rfl⟩

def normalMinor (a : Numeral) : Numeral :=
  if leadsWithZero a then numeralOf (dropTrailingZeros a.chars) else a

def normalSuffix (s : Suffix) : Suffix :=
  { s with number := Numeral.read? (dropZeros s.digits) }

/-- The version without the zeros that do not count. -/
def normal (v : Version) : Version :=
  { v with
    major := numeralOf (dropZeros v.major.chars)
    minors := v.minors.map normalMinor
    suffixes := v.suffixes.map normalSuffix }

theorem read?_of_isDecimal {cs : List Char} (h : ∀ c ∈ cs, Text.isDecimal c = true) :
    cs = [] ∧ Numeral.read? cs = none ∨ ∃ a, a.chars = cs ∧ Numeral.read? cs = some a := by
  cases cs with
  | nil => exact .inl ⟨rfl, rfl⟩
  | cons c cs =>
    have hnumeral : isNumeral (c :: cs) = true := by
      simpa [isNumeral] using h
    exact .inr ⟨⟨c :: cs, hnumeral⟩, rfl, dif_pos hnumeral⟩

@[simp] theorem dropZeros_dropZeros (cs : List Char) : dropZeros (dropZeros cs) = dropZeros cs :=
  List.dropWhile_idempotent _ cs

@[simp] theorem dropTrailingZeros_dropTrailingZeros (cs : List Char) :
    dropTrailingZeros (dropTrailingZeros cs) = dropTrailingZeros cs := by
  simp [dropTrailingZeros]

theorem isDecimal_of_mem_dropZeros {cs : List Char} (h : ∀ c ∈ cs, Text.isDecimal c = true) :
    ∀ c ∈ dropZeros cs, Text.isDecimal c = true :=
  fun c hc => h c ((List.dropWhile_suffix _).subset hc)

theorem isDecimal_of_mem_dropTrailingZeros {cs : List Char}
    (h : ∀ c ∈ cs, Text.isDecimal c = true) :
    ∀ c ∈ dropTrailingZeros cs, Text.isDecimal c = true := by
  simpa [dropTrailingZeros] using @isDecimal_of_mem_dropZeros cs.reverse (by simpa using h)

theorem dropZeros_numeralOf (a : Numeral) :
    dropZeros (numeralOf (dropZeros a.chars)).chars = dropZeros a.chars := by
  rcases read?_of_isDecimal (isDecimal_of_mem_dropZeros a.isDecimal_of_mem) with
    ⟨hnil, hread⟩ | ⟨b, hb, hread⟩
  · rw [numeralOf, hread, hnil]
    rfl
  · simp [numeralOf, hread, hb]

theorem sameMinor_normalMinor (a : Numeral) : SameMinor a (normalMinor a) := by
  rw [normalMinor]
  split
  next hzero =>
    obtain ⟨c, cs, hcs, -⟩ := a.chars_eq_cons
    have hc : c = '0' := by simpa [leadsWithZero, hcs] using hzero
    rcases read?_of_isDecimal (isDecimal_of_mem_dropTrailingZeros a.isDecimal_of_mem) with
      ⟨hnil, hread⟩ | ⟨b, hb, hread⟩
    · rw [numeralOf, hread]
      exact .inr ⟨hzero, rfl, hnil⟩
    · have hlead : leadsWithZero b = true := by
        have hdigits := dropTrailingZeros_cons c cs
        rw [← hcs, ← hb] at hdigits
        split at hdigits
        next =>
          obtain ⟨d, ds, hds, -⟩ := b.chars_eq_cons
          simp [hds] at hdigits
        next => simp [leadsWithZero, hdigits, hc]
      rw [numeralOf, hread]
      exact .inr ⟨hzero, hlead, by simp [hb]⟩
  next => exact .inl rfl

theorem sameSuffix_normalSuffix (s : Suffix) : SameSuffix s (normalSuffix s) := by
  refine ⟨rfl, ?_⟩
  rcases read?_of_isDecimal (isDecimal_of_mem_dropZeros s.isDecimal_of_mem_digits) with
    ⟨hnil, hread⟩ | ⟨b, hb, hread⟩
  · rw [hnil, Suffix.digits, normalSuffix, hread]
    rfl
  · have hdigits : (normalSuffix s).digits = dropZeros s.digits := by
      rw [normalSuffix, hread, Suffix.digits, Option.elim_some, hb]
    rw [hdigits, dropZeros_dropZeros]

theorem sameParts_normal (v : Version) : SameParts v v.normal where
  major := (dropZeros_numeralOf v.major).symm
  minors := by
    simp [normal, List.forall₂_map_right_iff, List.forall₂_same, sameMinor_normalMinor]
  letter := rfl
  suffixes := by
    simp [normal, List.forall₂_map_right_iff, List.forall₂_same, sameSuffix_normalSuffix]
  revision := rfl

theorem normalMinor_of_same {a b : Numeral} (h : SameMinor a b) :
    normalMinor a = normalMinor b := by
  rcases h with rfl | ⟨ha, hb, hdigits⟩
  · rfl
  · simp [normalMinor, ha, hb, hdigits]

theorem normalSuffix_of_same {s t : Suffix} (h : SameSuffix s t) :
    normalSuffix s = normalSuffix t := by
  obtain ⟨hkind, hdigits⟩ := h
  simp [normalSuffix, hkind, hdigits]

theorem SameParts.normal_eq {v w : Version} (h : SameParts v w) : v.normal = w.normal := by
  obtain ⟨hmajor, hminors, hletter, hsuffixes, hrevision⟩ := h
  have hminors := map_eq_of_forall₂ @normalMinor_of_same hminors
  have hsuffixes := map_eq_of_forall₂ @normalSuffix_of_same hsuffixes
  simp [normal, hmajor, hminors, hletter, hsuffixes, hrevision]

/-- Versions are equal if their parts differ in nothing but zeros that do not count. Each version
has one normal form, which is equal to it, and equal versions are those that share it. -/
theorem same_iff_normal (v w : Version) :
    (v.same w = true ↔ SameParts v w) ∧ (v.same w = true ↔ v.normal = w.normal) ∧
      v.same v.normal = true := by
  have hself : ∀ u : Version, u.same u.normal = true := fun u =>
    same_iff_sameParts.mpr u.sameParts_normal
  refine ⟨same_iff_sameParts, ⟨fun h => (same_iff_sameParts.mp h).normal_eq, fun h => ?_⟩, hself v⟩
  -- both are equal to the form that they share
  have hv := hself v
  have hw := hself w
  rw [h] at hv
  rw [same, beq_iff_eq] at hv hw ⊢
  exact TransCmp.eq_trans hv (OrientedCmp.eq_symm hw)

example : ∃ v w, parse "01.010a_p00" = .ok v ∧ parse "1.01a_p" = .ok w ∧ v.normal = w :=
  ⟨_, _, rfl, rfl, rfl⟩

end Version

end PackageAlgebra
