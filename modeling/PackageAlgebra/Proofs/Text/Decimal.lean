import PackageAlgebra.Text

/-!
# Digits and the characters of names

What is written for a number is a run of ASCII digits that reads back as that
number, and other runs that do have zeros in front of it. Names and versions
share one class of characters, which holds no blank and no mark that separates
the parts of an atom.
-/

namespace PackageAlgebra.Text

theorem of_isDecimal {p : Char → Bool} {c : Char}
    (h : ∀ first ∈ decimalZeros, ∀ i < 10, p (Char.ofNat (first + i)) = true)
    (hc : isDecimal c = true) : p c = true := by
  simp only [isDecimal, List.any_eq_true, Bool.and_eq_true, decide_eq_true_eq] at hc
  obtain ⟨first, hfirst, hle, hge⟩ := hc
  have hp := h first hfirst (c.toNat - first) (by omega)
  rwa [Nat.add_sub_cancel' hle, Char.ofNat_toNat] at hp

theorem zero_le_of_isDecimal {c : Char} (h : isDecimal c = true) : '0' ≤ c := by
  simpa using of_isDecimal (p := fun c => decide ('0' ≤ c)) (by decide +kernel) h

theorem isBlank_of_isDecimal {c : Char} (h : isDecimal c = true) : isBlank c = false := by
  simpa using of_isDecimal (p := fun c => !isBlank c) (by decide +kernel) h

theorem isDecimal_of_isDigit {c : Char} (h : isDigit c = true) : isDecimal c = true := by
  simp only [isDigit, Bool.and_eq_true, decide_eq_true_eq] at h
  have hlo : 48 ≤ c.toNat := h.1
  have hhi : c.toNat ≤ 57 := h.2
  simp only [isDecimal, List.any_eq_true, Bool.and_eq_true, decide_eq_true_eq]
  exact ⟨0x30, by decide, hlo, hhi⟩

theorem isDigit_of_mem_digits {n : Nat} : ∀ c ∈ digits n, isDigit c = true := by
  intro c hc
  have h := Nat.isDigit_of_mem_toDigits (by decide) (by decide) hc
  simp only [Char.isDigit, Bool.and_eq_true, decide_eq_true_eq] at h
  simp only [isDigit, Bool.and_eq_true, decide_eq_true_eq]
  exact ⟨h.1, h.2⟩

theorem number?_digits (n : Nat) : number? (digits n) = some n := by
  have hne : (digits n).isEmpty = false := by
    rw [List.isEmpty_eq_false_iff]
    exact Nat.toDigits_ne_nil
  have hall : (digits n).all isDigit = true := List.all_eq_true.mpr isDigit_of_mem_digits
  have hvalue : numberOf (digits n) = n := Nat.ofDigitChars_ten_toDigits
  simp [number?, hne, hall, hvalue]

-- ---------------------------------------------------------------------------
-- Leading zeros
-- ---------------------------------------------------------------------------

theorem digitChar_of_isDigit {c : Char} (h : isDigit c = true) :
    ∃ n < 10, c.toNat - '0'.toNat = n ∧ Nat.digitChar n = c := by
  simp only [isDigit, Bool.and_eq_true, decide_eq_true_eq] at h
  have hlo : 48 ≤ c.toNat := h.1
  have hhi : c.toNat ≤ 57 := h.2
  refine ⟨c.toNat - 48, by omega, rfl, Char.toNat_inj.mp ?_⟩
  rw [Nat.toNat_digitChar_of_lt_ten (by omega)]
  omega

theorem toNat_sub_pos {c : Char} (h : isDigit c = true) (hne : c ≠ '0') :
    0 < c.toNat - '0'.toNat := by
  obtain ⟨n, -, hvalue, hchar⟩ := digitChar_of_isDigit h
  rw [hvalue]
  rcases Nat.eq_zero_or_pos n with rfl | hpos
  · exact absurd hchar.symm hne
  · exact hpos

theorem digits_append {n : Nat} (hn : 0 < n) {cs : List Char} (h : ∀ c ∈ cs, isDigit c = true) :
    digits n ++ cs = digits (Nat.ofDigitChars 10 cs n) := by
  induction cs generalizing n with
  | nil => simp
  | cons c cs ih =>
    obtain ⟨d, hd, hvalue, hchar⟩ := digitChar_of_isDigit (h c List.mem_cons_self)
    have hstep : digits n ++ [c] = digits (10 * n + d) := by
      have hjoin := Nat.toDigits_append_toDigits (b := 10) (by decide) hn hd
      rwa [Nat.toDigits_of_lt_base hd, hchar] at hjoin
    calc
      digits n ++ c :: cs = digits n ++ [c] ++ cs := by simp
      _ = digits (10 * n + d) ++ cs := by rw [hstep]
      _ = digits (Nat.ofDigitChars 10 cs (10 * n + d)) :=
        ih (by omega) fun e he => h e (List.mem_cons_of_mem _ he)
      _ = digits (Nat.ofDigitChars 10 (c :: cs) n) := by rw [Nat.ofDigitChars_cons, hvalue]

/-- Digits with no zero in front are those that are written for their number. -/
theorem digits_numberOf {c : Char} {cs : List Char} (h : ∀ d ∈ c :: cs, isDigit d = true)
    (hc : c ≠ '0') : digits (numberOf (c :: cs)) = c :: cs := by
  obtain ⟨d, hd, hvalue, hchar⟩ := digitChar_of_isDigit (h c List.mem_cons_self)
  have hpos : 0 < d := hvalue ▸ toNat_sub_pos (h c List.mem_cons_self) hc
  have hnumber : numberOf (c :: cs) = Nat.ofDigitChars 10 cs d := by
    show Nat.ofDigitChars 10 cs (10 * 0 + (c.toNat - '0'.toNat)) = _
    rw [hvalue, Nat.mul_zero, Nat.zero_add]
  have hfirst : digits d = [c] := by rw [digits, Nat.toDigits_of_lt_base hd, hchar]
  rw [hnumber, ← digits_append hpos fun e he => h e (List.mem_cons_of_mem _ he), hfirst,
    List.singleton_append]

theorem dropWhile_zero_eq {ds : List Char} (h : ∀ c ∈ ds, isDigit c = true) :
    ds.dropWhile (· == '0') = if numberOf ds = 0 then [] else digits (numberOf ds) := by
  induction ds with
  | nil => rfl
  | cons c cs ih =>
    by_cases hc : c = '0'
    · subst hc
      exact ih fun d hd => h d (List.mem_cons_of_mem _ hd)
    · have hdigits := digits_numberOf h hc
      have hne : numberOf (c :: cs) ≠ 0 := by
        intro hzero
        rw [hzero] at hdigits
        exact hc (List.cons.inj hdigits).1.symm
      simp [hc, hne, hdigits]

-- ---------------------------------------------------------------------------
-- Characters of names
-- ---------------------------------------------------------------------------

theorem isAlphanum_eq (c : Char) :
    c.isAlphanum =
      (decide ('A' ≤ c ∧ c ≤ 'Z') || ('a' ≤ c && c ≤ 'z') || ('0' ≤ c && c ≤ '9')) :=
  rfl

theorem toNat_of_isAlphanum {c : Char} (h : c.isAlphanum = true) :
    48 ≤ c.toNat ∧ c.toNat ≤ 57 ∨ 65 ≤ c.toNat ∧ c.toNat ≤ 90 ∨ 97 ≤ c.toNat ∧ c.toNat ≤ 122 := by
  simp only [isAlphanum_eq, Bool.or_eq_true, Bool.and_eq_true, decide_eq_true_eq] at h
  rcases h with (h | h) | h
  · exact .inr (.inl h)
  · exact .inr (.inr h)
  · exact .inl h

theorem isBlank_of_printable {c : Char} (h : 33 ≤ c.toNat) (h' : c.toNat ≤ 126) :
    isBlank c = false := by
  simp only [isBlank, Bool.or_eq_false_iff, Bool.and_eq_false_iff, decide_eq_false_iff_not,
    beq_eq_false_iff_ne]
  omega

theorem isBlank_of_isAlphanum {c : Char} (h : c.isAlphanum = true) : isBlank c = false := by
  have := toNat_of_isAlphanum h
  exact isBlank_of_printable (by omega) (by omega)

def isPartChar (c : Char) : Bool :=
  isDecimal c || isNameStart c || ['+', '.', '-'].contains c

theorem isBlank_of_isPartChar {c : Char} (h : isPartChar c = true) : isBlank c = false := by
  simp only [isPartChar, isNameStart, Bool.or_eq_true, beq_iff_eq, List.contains_iff_mem] at h
  rcases h with (h | h | rfl) | h
  · exact isBlank_of_isDecimal h
  · exact isBlank_of_isAlphanum h
  · decide
  · simp only [List.mem_cons, List.not_mem_nil, or_false] at h
    rcases h with rfl | rfl | rfl <;> rfl

theorem isPartChar_of_isNameStart {c : Char} (h : isNameStart c = true) : isPartChar c = true := by
  simp [isPartChar, h]

theorem isNameWith_eq_cons {marks cs : List Char} (h : isNameWith marks cs = true) :
    ∃ d ds, cs = d :: ds ∧ isNameStart d = true := by
  cases cs with
  | nil => cases h
  | cons d ds =>
    simp only [isNameWith, Bool.and_eq_true] at h
    exact ⟨d, ds, rfl, h.1⟩

theorem isPartChar_of_isNameWith {marks cs : List Char} (hmarks : marks.all isPartChar = true)
    (h : isNameWith marks cs = true) : ∀ c ∈ cs, isPartChar c = true := by
  cases cs with
  | nil => cases h
  | cons d ds =>
    simp only [isNameWith, Bool.and_eq_true, List.all_eq_true, Bool.or_eq_true,
      List.contains_iff_mem] at h
    intro c hc
    rcases List.mem_cons.mp hc with rfl | hc
    · exact isPartChar_of_isNameStart h.1
    · exact (h.2 c hc).elim isPartChar_of_isNameStart (List.all_eq_true.mp hmarks c)

theorem isPartChar_of_isCategoryName {cs : List Char} (h : isCategoryName cs = true) :
    ∀ c ∈ cs, isPartChar c = true :=
  isPartChar_of_isNameWith (by decide) h

theorem isPartChar_of_isPackageName {cs : List Char} (h : isPackageName cs = true) :
    ∀ c ∈ cs, isPartChar c = true :=
  isPartChar_of_isNameWith (by decide) h

theorem isPartChar_of_isSlotName {cs : List Char} (h : isSlotName cs = true) :
    ∀ c ∈ cs, isPartChar c = true :=
  isPartChar_of_isNameWith (by decide) h

theorem isPartChar_of_isRepositoryName {cs : List Char} (h : isRepositoryName cs = true) :
    ∀ c ∈ cs, isPartChar c = true :=
  isPartChar_of_isNameWith (by decide) h

theorem not_mem_of_isPartChar {cs : List Char} {mark : Char} (h : ∀ c ∈ cs, isPartChar c = true)
    (hmark : isPartChar mark = false) : mark ∉ cs := by
  intro hmem
  rw [h mark hmem] at hmark
  cases hmark

theorem not_mem_of_isPartChar_or {cs : List Char} {mark other : Char}
    (h : ∀ c ∈ cs, isPartChar c = true ∨ c = other) (hmark : isPartChar mark = false)
    (hne : mark ≠ other) : mark ∉ cs := by
  intro hmem
  rcases h mark hmem with hpart | hother
  · rw [hmark] at hpart
    cases hpart
  · exact hne hother

end PackageAlgebra.Text
