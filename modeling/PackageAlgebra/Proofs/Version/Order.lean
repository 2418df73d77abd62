import PackageAlgebra.Proofs.Version.RoundTrip
import PackageAlgebra.Version

/-!
# The order of versions is total

Each stage of the comparison is a comparison by keys. Two stages need keys that
the comparison itself does not have: later numbers, which compare in two ways,
and chains of suffixes, whose end has a place among the kinds.
-/

namespace PackageAlgebra

open Std (TransCmp OrientedCmp TransOrd)

theorem transCmp_on (cmp : β → β → Ordering) [TransCmp cmp] (f : α → β) :
    TransCmp fun a b => cmp (f a) (f b) where
  eq_swap := by
    intro a b
    exact OrientedCmp.eq_swap
  isLE_trans := by
    intro a b c hab hbc
    exact TransCmp.isLE_trans hab hbc

namespace Version

instance : TransCmp compareIntegers :=
  inferInstanceAs (TransCmp (compareLex (compareOn fun cs => byteLength (dropZeros cs))
    (compareOn dropZeros)))

-- ---------------------------------------------------------------------------
-- Later numbers
-- ---------------------------------------------------------------------------

theorem dropTrailingZeros_cons (c : Char) (cs : List Char) :
    dropTrailingZeros (c :: cs) =
      if c = '0' ∧ dropTrailingZeros cs = [] then [] else c :: dropTrailingZeros cs := by
  simp only [dropTrailingZeros, dropZeros, List.reverse_cons, List.dropWhile_append,
    List.isEmpty_iff, List.reverse_eq_nil_iff]
  by_cases hz : c = '0'
  · split
    next hzeros => simp [hz, hzeros]
    next hzeros => simp [hz, hzeros]
  · split
    next hzeros => simp [hz, hzeros]
    next hzeros => simp [hz, hzeros]

def leadsWithZero (a : Numeral) : Bool :=
  a.chars.head? == some '0'

theorem compare_dropTrailingZeros_lt {a b : Numeral} (ha : leadsWithZero a = true)
    (hb : leadsWithZero b = false) :
    compare (dropTrailingZeros a.chars) (dropTrailingZeros b.chars) = .lt := by
  obtain ⟨c, cs, hcs, -⟩ := a.chars_eq_cons
  obtain ⟨d, ds, hds, hd⟩ := b.chars_eq_cons
  have hc : c = '0' := by simpa [leadsWithZero, hcs] using ha
  have hne : d ≠ '0' := by simpa [leadsWithZero, hds] using hb
  have hlt : '0' < d := Char.not_le.mp fun hle =>
    hne (Char.le_antisymm hle (Text.zero_le_of_isDecimal hd))
  have hcmp : compare '0' d = .lt := by simp [compare, compareOfLessAndEq, hlt]
  rw [hcs, hds, dropTrailingZeros_cons d, if_neg (fun h => hne h.1), dropTrailingZeros_cons c, hc]
  split
  · rfl
  · show List.compareLex compare ('0' :: _) (d :: _) = .lt
    rw [List.compareLex_cons_cons, hcmp]
    rfl

/-- What the comparison of later numbers compares once it is known which lead with zero. -/
def minorText (a : Numeral) : List Char :=
  if leadsWithZero a then dropTrailingZeros a.chars else dropZeros a.chars

def minorLength (a : Numeral) : Nat :=
  if leadsWithZero a then 0 else byteLength (dropZeros a.chars)

theorem compareMinor_eq_compareLex :
    compareMinor = compareLex (compareOn fun a => !leadsWithZero a)
      (compareLex (compareOn minorLength) (compareOn minorText)) := by
  funext a b
  have head_iff : ∀ n : Numeral, n.chars.head? = some '0' ↔ leadsWithZero n = true := by
    simp [leadsWithZero]
  simp only [compareMinor, compareLex, compareOn, head_iff, minorLength,
    minorText]
  cases ha : leadsWithZero a <;> cases hb : leadsWithZero b
  case false.false => simp [compareIntegers]
  case false.true =>
    have h := compare_dropTrailingZeros_lt hb ha
    simp [OrientedCmp.gt_of_lt h]
    rfl
  case true.false =>
    have h := compare_dropTrailingZeros_lt ha hb
    simp [h]
    rfl
  case true.true => simp

instance : TransCmp compareMinor := by
  rw [compareMinor_eq_compareLex]
  infer_instance

instance : TransCmp compareMinors :=
  inferInstanceAs (TransCmp (List.compareLex compareMinor))

instance : TransCmp compareLetters :=
  transCmp_on compare (Option.map Letter.char)

-- ---------------------------------------------------------------------------
-- Suffixes
-- ---------------------------------------------------------------------------

/-- The place of a suffix, or of the end of a chain, among them: the end stands between `_rc` and
`_p`. -/
def suffixRank : Option Suffix → Nat
  | some s => if s.kind = .p then 5 else s.kind.rank
  | none => 4

def compareEnds : Option Suffix → Option Suffix → Ordering :=
  compareLex (compareOn suffixRank)
    fun s t => compareIntegers (s.elim [] Suffix.digits) (t.elim [] Suffix.digits)

/-- The chain with its end written out. -/
def ended (ss : List Suffix) : List (Option Suffix) :=
  ss.map some ++ [none]

theorem compareEnds_some (s t : Suffix) : compareEnds (some s) (some t) = compareSuffix s t := by
  have hrank : compare (suffixRank (some s)) (suffixRank (some t)) =
      compare s.kind.rank t.kind.rank := by
    cases hs : s.kind <;> cases ht : t.kind <;> simp [suffixRank, hs, ht, SuffixKind.rank] <;> rfl
  simp [compareEnds, compareLex, compareOn, hrank, compareSuffix]

theorem compareSuffixes_eq_compareLex (ss ts : List Suffix) :
    compareSuffixes ss ts = List.compareLex compareEnds (ended ss) (ended ts) := by
  induction ss generalizing ts with
  | nil =>
    cases ts with
    | nil => rfl
    | cons t ts =>
      simp only [ended, List.map_nil, List.nil_append, List.map_cons, List.cons_append,
        List.compareLex_cons_cons, compareSuffixes]
      cases ht : t.kind <;> simp [compareEnds, compareLex, compareOn, suffixRank, ht] <;> rfl
  | cons s ss ih =>
    cases ts with
    | nil =>
      simp only [ended, List.map_nil, List.nil_append, List.map_cons, List.cons_append,
        List.compareLex_cons_cons, compareSuffixes]
      cases hs : s.kind <;> simp [compareEnds, compareLex, compareOn, suffixRank, hs] <;> rfl
    | cons t ts =>
      have ih := ih ts
      simp only [ended] at ih
      simp only [ended, List.map_cons, List.cons_append, List.compareLex_cons_cons,
        compareSuffixes, ih, compareEnds_some]

instance : TransCmp compareEnds :=
  have := transCmp_on compareIntegers fun s : Option Suffix => s.elim [] Suffix.digits
  inferInstanceAs (TransCmp (compareLex (compareOn suffixRank) _))

instance : TransCmp compareSuffixes := by
  have h : compareSuffixes = fun ss ts => List.compareLex compareEnds (ended ss) (ended ts) := by
    funext ss ts
    exact compareSuffixes_eq_compareLex ss ts
  rw [h]
  exact transCmp_on (List.compareLex compareEnds) ended

instance : TransCmp compareBase :=
  have := transCmp_on compareIntegers fun v : Version => v.major.chars
  have := transCmp_on compareMinors Version.minors
  have := transCmp_on compareLetters Version.letter
  have := transCmp_on compareSuffixes Version.suffixes
  inferInstanceAs (TransCmp (compareLex
    (fun v w : Version => compareIntegers v.major.chars w.major.chars)
    (compareLex (fun v w : Version => compareMinors v.minors w.minors)
      (compareLex (fun v w : Version => compareLetters v.letter w.letter)
        fun v w : Version => compareSuffixes v.suffixes w.suffixes))))

instance : TransCmp compareVersions :=
  inferInstanceAs (TransCmp (compareLex compareBase (compareOn Version.revision)))

instance : TransOrd Version :=
  inferInstanceAs (TransCmp compareVersions)

end Version

end PackageAlgebra
