import PackageAlgebra.Proofs.Text.Cut
import PackageAlgebra.Proofs.Text.Decimal
import PackageAlgebra.Version

/-!
# Versions and their texts

What the characters of a numeral, a letter and a suffix can be, and so where a
reader sees one part end and the next begin.
-/

namespace PackageAlgebra

namespace Numeral

theorem chars_eq_cons (a : Numeral) : ∃ c cs, a.chars = c :: cs ∧ Text.isDecimal c = true := by
  have h := a.isNumeral_chars
  cases hc : a.chars with
  | nil => simp [hc, isNumeral] at h
  | cons c cs =>
    simp only [hc, isNumeral, List.all_cons, Bool.and_eq_true] at h
    exact ⟨c, cs, rfl, h.2.1⟩

theorem isDecimal_of_mem {a : Numeral} : ∀ c ∈ a.chars, Text.isDecimal c = true := by
  have h := a.isNumeral_chars
  rw [isNumeral, Bool.and_eq_true] at h
  exact List.all_eq_true.mp h.2

theorem not_mem_chars {a : Numeral} {c : Char} (h : Text.isDecimal c = false) : c ∉ a.chars := by
  intro hc
  rw [isDecimal_of_mem c hc] at h
  cases h

@[simp] theorem read?_chars (a : Numeral) : read? a.chars = some a := by
  rw [read?, dif_pos a.isNumeral_chars]

end Numeral

theorem isDecimal_of_isLetter {c : Char} (h : isLetter c = true) : Text.isDecimal c = false := by
  cases hc : Text.isDecimal c with
  | false => rfl
  | true =>
    have hno := Text.of_isDecimal (p := fun c => !isLetter c) (by decide +kernel) hc
    simp [h] at hno

@[simp] theorem Letter.ofChar?_char (l : Letter) : ofChar? l.char = some l := by
  rw [ofChar?, dif_pos l.isLetter_char]

-- ---------------------------------------------------------------------------
-- Suffixes
-- ---------------------------------------------------------------------------

namespace Suffix

theorem isDecimal_of_mem_digits {s : Suffix} : ∀ c ∈ s.digits, Text.isDecimal c = true := by
  rw [digits]
  cases s.number with
  | none => simp
  | some n => exact Numeral.isDecimal_of_mem

@[simp] theorem readNumber?_digits (s : Suffix) : readNumber? s.digits = some s.number := by
  rw [digits]
  cases s.number with
  | none => rfl
  | some n =>
    have hne : n.chars.isEmpty = false := by
      obtain ⟨c, cs, hcs, -⟩ := n.chars_eq_cons
      rw [hcs, List.isEmpty_cons]
    simp [readNumber?, hne]

/-- `_p` is not taken for the beginning of `_pre`: no digit goes on as `pre` does. -/
theorem isPrefixOf?_re_digits (s : Suffix) : ['r', 'e'].isPrefixOf? s.digits = none := by
  have h := s.isDecimal_of_mem_digits
  cases hd : s.digits with
  | nil => rfl
  | cons c cs =>
    have hne : 'r' ≠ c := by
      rintro rfl
      exact absurd (h 'r' (by simp [hd])) (by decide)
    simp [hne]

theorem read?_name_digits (s : Suffix) : read? (s.kind.name ++ s.digits) = some s := by
  have hre := isPrefixOf?_re_digits s
  obtain ⟨kind, number⟩ := s
  have hnumber := readNumber?_digits ⟨kind, number⟩
  cases kind with
  | p => simp [read?, SuffixKind.all, SuffixKind.name, hnumber, hre]
  | _ => simp [read?, SuffixKind.all, SuffixKind.name, hnumber]

theorem not_mem_name_digits {s : Suffix} {c : Char} (hc : c = '_' ∨ c = '-') :
    c ∉ s.kind.name ++ s.digits := by
  have hname : ∀ kind ∈ SuffixKind.all, '_' ∉ kind.name ∧ '-' ∉ kind.name := by decide
  have hkind : s.kind ∈ SuffixKind.all := by cases s.kind <;> decide
  intro hmem
  rcases List.mem_append.mp hmem with hmem | hmem
  · rcases hc with rfl | rfl
    · exact (hname _ hkind).1 hmem
    · exact (hname _ hkind).2 hmem
  · have hdec := s.isDecimal_of_mem_digits c hmem
    rcases hc with rfl | rfl
    · exact absurd hdec (by decide)
    · exact absurd hdec (by decide)

end Suffix

namespace Version

open Text (StopsAt takeWhile_append_of_stopsAt dropWhile_append_of_stopsAt isPartChar)

-- ---------------------------------------------------------------------------
-- The parts of a printed version
-- ---------------------------------------------------------------------------

def numberChars (v : Version) : List Char :=
  v.major.chars ++ v.minors.flatMap ('.' :: ·.chars)

def letterChars (v : Version) : List Char :=
  v.letter.toList.map Letter.char

def suffixChars (v : Version) : List Char :=
  v.suffixes.flatMap Suffix.chars

theorem append_eq_parts (v : Version) (revision : List Char) :
    v.baseChars ++ revision = v.numberChars ++ (v.letterChars ++ (v.suffixChars ++ revision)) := by
  simp [baseChars, numberChars, letterChars, suffixChars]

theorem chars_eq_parts (v : Version) :
    v.chars = v.numberChars ++ (v.letterChars ++ (v.suffixChars ++ v.revisionChars)) :=
  append_eq_parts v v.revisionChars

theorem inNumbers_of_mem_numberChars {v : Version} : ∀ c ∈ v.numberChars, inNumbers c = true := by
  intro c hc
  rcases List.mem_append.mp hc with hc | hc
  · simp [inNumbers, Numeral.isDecimal_of_mem c hc]
  · obtain ⟨n, -, hc⟩ := List.mem_flatMap.mp hc
    rcases List.mem_cons.mp hc with rfl | hc
    · decide
    · simp [inNumbers, Numeral.isDecimal_of_mem c hc]

theorem inNumbers_of_isLetter {c : Char} (h : isLetter c = true) : inNumbers c = false := by
  have hdot : c ≠ '.' := by
    rintro rfl
    exact absurd h (by decide)
  simp [inNumbers, isDecimal_of_isLetter h, hdot]

theorem hyphen_not_mem_suffixChars (v : Version) : '-' ∉ v.suffixChars := by
  intro hc
  obtain ⟨s, -, hc⟩ := List.mem_flatMap.mp hc
  rcases List.mem_cons.mp hc with hc | hc
  · cases hc
  · exact Suffix.not_mem_name_digits (.inr rfl) hc

theorem stopsAt_revisionChars (v : Version) : StopsAt (· != '-') v.revisionChars := by
  rw [revisionChars]
  split
  · simp
  · simp

section

-- What stands behind the base is a revision in any spelling, or what is none.
variable (v : Version) {revision : List Char} (hrevision : StopsAt (· != '-') revision)

include hrevision

theorem head?_suffixChars_append :
    ∀ c ∈ (v.suffixChars ++ revision).head?, c = '_' ∨ c = '-' := by
  cases hs : v.suffixes with
  | nil =>
    intro c hc
    rw [suffixChars, hs, List.flatMap_nil, List.nil_append] at hc
    exact .inr (by simpa using hrevision c hc)
  | cons s ss => simp [suffixChars, hs, Suffix.chars]

theorem stopsAt_behind_numbers :
    StopsAt inNumbers (v.letterChars ++ (v.suffixChars ++ revision)) := by
  cases hl : v.letter with
  | some l => simpa [letterChars, hl] using inNumbers_of_isLetter l.isLetter_char
  | none =>
    intro c hc
    rcases head?_suffixChars_append v hrevision c (by simpa [letterChars, hl] using hc) with
      rfl | rfl
    · decide
    · decide

theorem letter_of_head? :
    (v.letterChars ++ (v.suffixChars ++ revision)).head?.bind Letter.ofChar? = v.letter := by
  cases hl : v.letter with
  | some l => simp [letterChars, hl]
  | none =>
    simp only [letterChars, hl, Option.toList_none, List.map_nil, List.nil_append]
    cases hh : (v.suffixChars ++ revision).head? with
    | none => rfl
    | some c =>
      rcases head?_suffixChars_append v hrevision c hh with rfl | rfl
      · rfl
      · rfl

theorem ofChars_append :
    Parts.ofChars (v.baseChars ++ revision) =
      ⟨v.numberChars, v.letter, v.suffixChars, revision⟩ := by
  have hnumbers := inNumbers_of_mem_numberChars (v := v)
  have hbehind := stopsAt_behind_numbers v hrevision
  have hletter := letter_of_head? v hrevision
  have hsuffixes : ∀ c ∈ v.suffixChars, (c != '-') = true := by
    intro c hc
    have hne : c ≠ '-' := fun h => hyphen_not_mem_suffixChars v (h ▸ hc)
    simpa using hne
  have htail : (if v.letter.isSome then
      (v.letterChars ++ (v.suffixChars ++ revision)).tail
      else v.letterChars ++ (v.suffixChars ++ revision)) = v.suffixChars ++ revision := by
    cases hl : v.letter <;> simp [letterChars, hl]
  rw [Parts.ofChars, append_eq_parts]
  simp only [takeWhile_append_of_stopsAt hnumbers hbehind,
    dropWhile_append_of_stopsAt hnumbers hbehind, hletter, htail,
    takeWhile_append_of_stopsAt hsuffixes hrevision,
    dropWhile_append_of_stopsAt hsuffixes hrevision]

end

theorem isPartChar_of_isDecimal {c : Char} (h : Text.isDecimal c = true) : isPartChar c = true := by
  simp [isPartChar, h]

theorem isPartChar_of_isLetter {c : Char} (h : isLetter c = true) : isPartChar c = true := by
  have halpha : c.isAlphanum = true := by
    simp only [isLetter, Bool.and_eq_true, decide_eq_true_eq] at h
    simp [Text.isAlphanum_eq, h]
  simp [isPartChar, Text.isNameStart, halpha]

theorem isPartChar_of_mem_name (kind : SuffixKind) : ∀ c ∈ kind.name, isPartChar c = true := by
  cases kind <;> exact List.all_eq_true.mp (by decide)

theorem isPartChar_of_mem_chars (v : Version) : ∀ c ∈ v.chars, isPartChar c = true := by
  intro c hc
  simp only [chars_eq_parts, List.mem_append] at hc
  rcases hc with hc | hc | hc | hc
  · have hc := inNumbers_of_mem_numberChars c hc
    simp only [inNumbers, Bool.or_eq_true, beq_iff_eq] at hc
    rcases hc with hc | rfl
    · exact isPartChar_of_isDecimal hc
    · decide
  · obtain ⟨l, -, rfl⟩ := List.mem_map.mp hc
    exact isPartChar_of_isLetter l.isLetter_char
  · obtain ⟨s, -, hc⟩ := List.mem_flatMap.mp hc
    rw [Suffix.chars, List.cons_append, List.mem_cons, List.mem_append] at hc
    rcases hc with rfl | hc | hc
    · decide
    · exact isPartChar_of_mem_name s.kind c hc
    · exact isPartChar_of_isDecimal (Suffix.isDecimal_of_mem_digits c hc)
  · rw [revisionChars] at hc
    split at hc
    · cases hc
    · rw [List.mem_cons, List.mem_cons] at hc
      rcases hc with rfl | rfl | hc
      · decide
      · decide
      · exact isPartChar_of_isDecimal (Text.isDecimal_of_isDigit (Text.isDigit_of_mem_digits c hc))

-- ---------------------------------------------------------------------------
-- Reading the parts
-- ---------------------------------------------------------------------------

theorem mapM_read?_numberChars (v : Version) :
    (v.numberChars.splitOn '.').mapM Numeral.read? = some (v.major :: v.minors) := by
  have hdot : Text.isDecimal '.' = false := by decide
  have hsplit : v.numberChars.splitOn '.' = (v.major :: v.minors).map Numeral.chars := by
    have hchars : v.numberChars =
        v.major.chars ++ (v.minors.map Numeral.chars).flatMap ('.' :: ·) := by
      rw [List.flatMap_map]
      rfl
    rw [List.map_cons, hchars]
    exact Text.splitOn_flatMap_cons (Numeral.not_mem_chars hdot)
      (by simpa using fun n _ => Numeral.not_mem_chars hdot)
  rw [hsplit]
  exact Text.mapM_map_eq_some fun n _ => Numeral.read?_chars n

theorem readAll?_suffixChars (v : Version) :
    (if v.suffixChars.isEmpty then some [] else Suffix.readAll? v.suffixChars) =
      some v.suffixes := by
  cases hs : v.suffixes with
  | nil => simp [suffixChars, hs]
  | cons s ss =>
    have hne : v.suffixChars.isEmpty = false := by simp [suffixChars, hs, Suffix.chars]
    have hsplit : v.suffixChars.splitOn '_' =
        [] :: v.suffixes.map fun s => s.kind.name ++ s.digits := by
      have hchars : v.suffixChars =
          [] ++ (v.suffixes.map fun s => s.kind.name ++ s.digits).flatMap ('_' :: ·) := by
        rw [List.flatMap_map]
        rfl
      rw [hchars]
      exact Text.splitOn_flatMap_cons (by simp)
        (by simpa using fun s _ => Suffix.not_mem_name_digits (.inl rfl))
    rw [hne, if_neg (by simp), Suffix.readAll?, hsplit, ← hs]
    exact Text.mapM_map_eq_some fun s _ => Suffix.read?_name_digits s

theorem isNumeral_digits (n : Nat) : isNumeral (Text.digits n) = true := by
  have hne : (Text.digits n).isEmpty = false := by
    rw [List.isEmpty_eq_false_iff]
    exact Nat.toDigits_ne_nil
  have hall : (Text.digits n).all Text.isDecimal = true :=
    List.all_eq_true.mpr fun c hc => Text.isDecimal_of_isDigit (Text.isDigit_of_mem_digits c hc)
  simp [isNumeral, hne, hall]

theorem readRevision_revisionChars (text : String) (v : Version) :
    readRevision text v.revisionChars = .ok v.revision := by
  rw [revisionChars]
  split
  next hzero => rw [hzero, readRevision]
  next hne =>
    have hlt : v.revision.toNat < UInt64.size := v.revision.toNat_lt_size
    rw [readRevision, if_pos (isNumeral_digits _), Text.number?_digits]
    simp only [if_pos hlt, UInt64.ofNat_toNat]

/-- Behind the base of a version the reader looks for a revision and for nothing else. -/
theorem parse_append {text : String} (v : Version) {revision : List Char}
    (hrevision : StopsAt (· != '-') revision) (htext : text.toList = v.baseChars ++ revision) :
    parse text = (readRevision text revision).map ({ v with revision := · }) := by
  have hnumbers := mapM_read?_numberChars v
  have hsuffixes := readAll?_suffixChars v
  rw [parse, htext, ofChars_append v hrevision]
  simp only [hnumbers, hsuffixes]

theorem parse_chars (v : Version) : parse (String.ofList v.chars) = .ok v := by
  have htext : (String.ofList v.chars).toList = v.baseChars ++ v.revisionChars :=
    String.toList_ofList
  rw [parse_append v (stopsAt_revisionChars v) htext, readRevision_revisionChars]
  rfl

end Version

end PackageAlgebra
