import Mathlib.Algebra.Group.Nat.Defs
import PackageAlgebra.Proofs.Text.Decimal
import PackageAlgebra.Version

/-!
# Integers of any length

Runs of digits are compared as texts, first by their lengths and then by the
dictionary, without the zeros in front. That is the order of the numbers that
they write, however large these are.
-/

namespace PackageAlgebra

namespace Text

theorem compare_mul_add {base m n : Nat} (hm : m < base) (hn : n < base) (x y : Nat) :
    compare (base * x + m) (base * y + n) = (compare x y).then (compare m n) := by
  rcases Nat.lt_trichotomy x y with hlt | rfl | hgt
  · have hstep : base * (x + 1) ≤ base * y := Nat.mul_le_mul_left base hlt
    rw [Nat.mul_succ] at hstep
    rw [Nat.compare_eq_lt.mpr hlt, Nat.compare_eq_lt.mpr (by omega)]
    rfl
  · rw [Nat.compare_eq_eq.mpr rfl, Ordering.eq_then]
    simp only [Nat.compare_eq_ite_lt, Nat.add_lt_add_iff_left]
  · have hstep : base * (y + 1) ≤ base * x := Nat.mul_le_mul_left base hgt
    rw [Nat.mul_succ] at hstep
    rw [Nat.compare_eq_gt.mpr hgt, Nat.compare_eq_gt.mpr (by omega)]
    rfl

theorem numberOf_cons (c : Char) (cs : List Char) :
    numberOf (c :: cs) = 10 ^ cs.length * (c.toNat - '0'.toNat) + numberOf cs := by
  show Nat.ofDigitChars 10 cs (10 * 0 + (c.toNat - '0'.toNat)) = _
  rw [Nat.mul_zero, Nat.zero_add, Nat.ofDigitChars_eq_ofDigitChars_zero]
  rfl

theorem numberOf_lt {cs : List Char} (h : ∀ c ∈ cs, isDigit c = true) :
    numberOf cs < 10 ^ cs.length := by
  induction cs with
  | nil => decide
  | cons c cs ih =>
    obtain ⟨hc, hcs⟩ := List.forall_mem_cons.mp h
    obtain ⟨d, hd, hvalue, -⟩ := digitChar_of_isDigit hc
    have ih := ih hcs
    have hfirst : 10 ^ cs.length * d ≤ 10 ^ cs.length * 9 := Nat.mul_le_mul_left _ (by omega)
    rw [numberOf_cons, hvalue, List.length_cons, Nat.pow_succ]
    omega

theorem compare_eq_compare_toNat {c d : Char} (hc : isDigit c = true) (hd : isDigit d = true) :
    compare c d = compare (c.toNat - '0'.toNat) (d.toNat - '0'.toNat) := by
  obtain ⟨m, hm, hmvalue, rfl⟩ := digitChar_of_isDigit hc
  obtain ⟨n, hn, hnvalue, rfl⟩ := digitChar_of_isDigit hd
  rw [hmvalue, hnvalue]
  have hall : ∀ m < 10, ∀ n < 10, compare (Nat.digitChar m) (Nat.digitChar n) = compare m n := by
    decide
  exact hall m hm n hn

/-- Digits as many as each other stand in the order of the dictionary. -/
theorem compare_eq_compare_numberOf {a b : List Char} (hlength : a.length = b.length)
    (ha : ∀ c ∈ a, isDigit c = true) (hb : ∀ c ∈ b, isDigit c = true) :
    compare a b = compare (numberOf a) (numberOf b) := by
  induction a generalizing b with
  | nil =>
    obtain rfl := List.eq_nil_of_length_eq_zero hlength.symm
    rfl
  | cons c cs ih =>
    cases b with
    | nil => cases hlength
    | cons d ds =>
      obtain ⟨hc, hcs⟩ := List.forall_mem_cons.mp ha
      obtain ⟨hd, hds⟩ := List.forall_mem_cons.mp hb
      have hlength : cs.length = ds.length := Nat.succ.inj hlength
      calc
        compare (c :: cs) (d :: ds) = (compare c d).then (compare cs ds) :=
          List.compareLex_cons_cons
        _ = (compare (c.toNat - '0'.toNat) (d.toNat - '0'.toNat)).then
            (compare (numberOf cs) (numberOf ds)) := by
          rw [ih hlength hcs hds, compare_eq_compare_toNat hc hd]
        _ = compare (numberOf (c :: cs)) (numberOf (d :: ds)) := by
          rw [numberOf_cons, numberOf_cons, hlength,
            compare_mul_add (hlength ▸ numberOf_lt hcs) (numberOf_lt hds)]

theorem numberOf_lt_of_length_lt {a b : List Char} (hlength : a.length < b.length)
    (ha : ∀ c ∈ a, isDigit c = true) (hb : ∀ c ∈ b, isDigit c = true)
    (hhead : b.head? ≠ some '0') : numberOf a < numberOf b := by
  cases b with
  | nil => cases hlength
  | cons d ds =>
    have hpos : 0 < d.toNat - '0'.toNat :=
      toNat_sub_pos (hb d List.mem_cons_self) fun hzero => hhead (congrArg some hzero)
    calc
      numberOf a < 10 ^ a.length := numberOf_lt ha
      _ ≤ 10 ^ ds.length := Nat.pow_le_pow_right (by decide) (Nat.le_of_lt_succ hlength)
      _ ≤ 10 ^ ds.length * (d.toNat - '0'.toNat) := Nat.le_mul_of_pos_right _ hpos
      _ ≤ numberOf (d :: ds) := by
        rw [numberOf_cons]
        exact Nat.le_add_right _ _

end Text

namespace Version

open Text (isDigit numberOf)

theorem utf8Size_of_isDigit {c : Char} (h : isDigit c = true) : c.utf8Size = 1 := by
  simp only [isDigit, Bool.and_eq_true, decide_eq_true_eq] at h
  exact Char.utf8Size_eq_one_iff.mpr (UInt32.le_trans h.2 (by decide))

theorem byteLength_of_isDigit {cs : List Char} (h : ∀ c ∈ cs, isDigit c = true) :
    byteLength cs = cs.length := by
  -- the count goes on from what stands in front of the digits
  have hfold : ∀ n, cs.foldl (fun n c => n + c.utf8Size) n = n + cs.length := by
    induction cs with
    | nil => exact fun n => rfl
    | cons c cs ih =>
      obtain ⟨hc, hcs⟩ := List.forall_mem_cons.mp h
      intro n
      rw [List.foldl_cons, ih hcs, utf8Size_of_isDigit hc, List.length_cons, Nat.add_assoc,
        Nat.add_comm 1]
  rw [byteLength, hfold, Nat.zero_add]

theorem numberOf_dropZeros (cs : List Char) : numberOf (dropZeros cs) = numberOf cs := by
  induction cs with
  | nil => rfl
  | cons c cs ih =>
    by_cases hc : c = '0'
    · subst hc
      exact ih
    · simp [dropZeros, hc]

theorem head?_dropZeros_ne (cs : List Char) : (dropZeros cs).head? ≠ some '0' := by
  intro h
  have hnot := List.head?_dropWhile_not (· == '0') cs
  rw [← dropZeros, h] at hnot
  cases hnot

theorem forall_mem_dropZeros {p : Char → Prop} {cs : List Char} (h : ∀ c ∈ cs, p c) :
    ∀ c ∈ dropZeros cs, p c :=
  fun c hc => h c ((List.dropWhile_suffix _).subset hc)

theorem numberOf_lt_of_length_dropZeros_lt {a b : List Char}
    (hlength : (dropZeros a).length < (dropZeros b).length) (ha : ∀ c ∈ a, isDigit c = true)
    (hb : ∀ c ∈ b, isDigit c = true) : numberOf a < numberOf b := by
  rw [← numberOf_dropZeros a, ← numberOf_dropZeros b]
  exact Text.numberOf_lt_of_length_lt hlength (forall_mem_dropZeros ha)
    (forall_mem_dropZeros hb) (head?_dropZeros_ne b)

/-- Runs of digits compare as the numbers that they write, with any zeros in front of them. The
empty run writes zero. -/
theorem compareIntegers_numeric {a b : List Char} (ha : ∀ c ∈ a, isDigit c = true)
    (hb : ∀ c ∈ b, isDigit c = true) :
    compareIntegers a b = compare (numberOf a) (numberOf b) := by
  have hdropa := forall_mem_dropZeros ha
  have hdropb := forall_mem_dropZeros hb
  rw [compareIntegers, byteLength_of_isDigit hdropa, byteLength_of_isDigit hdropb]
  rcases Nat.lt_trichotomy (dropZeros a).length (dropZeros b).length with hlt | heq | hgt
  · have hnumber := numberOf_lt_of_length_dropZeros_lt hlt ha hb
    rw [Nat.compare_eq_lt.mpr hlt, Nat.compare_eq_lt.mpr hnumber]
    rfl
  · rw [Nat.compare_eq_eq.mpr heq, Ordering.eq_then,
      Text.compare_eq_compare_numberOf heq hdropa hdropb, numberOf_dropZeros, numberOf_dropZeros]
  · have hnumber := numberOf_lt_of_length_dropZeros_lt hgt hb ha
    rw [Nat.compare_eq_gt.mpr hgt, Nat.compare_eq_gt.mpr hnumber]
    rfl

theorem compareIntegers_numeric_padded :
    compareIntegers "000099999999999999999999".toList "100000000000000000000".toList = .lt ∧
      compareIntegers [] "000".toList = .eq := by
  have hleft : ∀ c ∈ "000099999999999999999999".toList, isDigit c = true :=
    List.all_eq_true.mp rfl
  have hright : ∀ c ∈ "100000000000000000000".toList, isDigit c = true := List.all_eq_true.mp rfl
  have hzeros : ∀ c ∈ "000".toList, isDigit c = true := List.all_eq_true.mp rfl
  rw [compareIntegers_numeric hleft hright, compareIntegers_numeric (List.forall_mem_nil _) hzeros]
  exact ⟨rfl, rfl⟩

end Version

end PackageAlgebra
