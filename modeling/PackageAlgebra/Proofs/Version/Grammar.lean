import PackageAlgebra.Proofs.Version.Spelling
import PackageAlgebra.Version

/-!
# The grammar of versions

`IsVersion digit cs`: the text is `D(.D)*`, at most one letter, a chain of
suffixes and at most one revision, where `D` is a run of what `digit` accepts.
The reader accepts the texts of this grammar with the decimal digits of every
script, but for the revision, which is a number of 64 bits in ASCII.
-/

namespace PackageAlgebra

namespace SuffixKind

theorem exists_name {name : String} (h : name ∈ ["alpha", "beta", "pre", "rc", "p"]) :
    ∃ kind : SuffixKind, kind.name = name.toList := by
  simp only [List.mem_cons, List.not_mem_nil, or_false] at h
  rcases h with rfl | rfl | rfl | rfl | rfl
  · exact ⟨.alpha, rfl⟩
  · exact ⟨.beta, rfl⟩
  · exact ⟨.pre, rfl⟩
  · exact ⟨.rc, rfl⟩
  · exact ⟨.p, rfl⟩

theorem name_eq_toList (kind : SuffixKind) :
    ∃ name ∈ ["alpha", "beta", "pre", "rc", "p"], kind.name = name.toList := by
  cases kind <;> exact ⟨_, by simp, rfl⟩

end SuffixKind

namespace Version

open Text (StopsAt)

-- ---------------------------------------------------------------------------
-- The grammar
-- ---------------------------------------------------------------------------

/-- A non-empty run of what `digit` accepts. -/
structure IsRun (digit : Char → Bool) (cs : List Char) : Prop where
  ne_nil : cs ≠ []
  digits : ∀ c ∈ cs, digit c = true

/-- `D(.D)*` -/
inductive IsNumbers (digit : Char → Bool) : List Char → Prop
  | single {ds : List Char} : IsRun digit ds → IsNumbers digit ds
  | dotted {ds rest : List Char} :
      IsRun digit ds → IsNumbers digit rest → IsNumbers digit (ds ++ '.' :: rest)

inductive IsLetters : List Char → Prop
  | none : IsLetters []
  | one {c : Char} : 'a' ≤ c → c ≤ 'z' → IsLetters [c]

/-- Any number of suffixes, each with a number or without one. -/
inductive IsSuffixes (digit : Char → Bool) : List Char → Prop
  | nil : IsSuffixes digit []
  | cons {name : String} {ds rest : List Char} : name ∈ ["alpha", "beta", "pre", "rc", "p"] →
      ds = [] ∨ IsRun digit ds → IsSuffixes digit rest →
      IsSuffixes digit ('_' :: (name.toList ++ ds) ++ rest)

/-- At most one revision, a number below 2^64. -/
inductive IsRevision : List Char → Prop
  | none : IsRevision []
  | one {ds : List Char} :
      IsRun Text.isDigit ds → Text.numberOf ds < UInt64.size → IsRevision ('-' :: 'r' :: ds)

def IsBase (digit : Char → Bool) (cs : List Char) : Prop :=
  ∃ numbers letters suffixes, cs = numbers ++ (letters ++ suffixes) ∧
    IsNumbers digit numbers ∧ IsLetters letters ∧ IsSuffixes digit suffixes

def IsVersion (digit : Char → Bool) (cs : List Char) : Prop :=
  ∃ base revision, cs = base ++ revision ∧ IsBase digit base ∧ IsRevision revision

/-- The text would be a version if its revision, a run of digits, were a number of 64 bits. -/
def OverrunsRevision (cs : List Char) : Prop :=
  ∃ base ds, cs = base ++ '-' :: 'r' :: ds ∧ IsBase Text.isDecimal base ∧
    IsRun Text.isDecimal ds ∧ ¬IsRevision ('-' :: 'r' :: ds)

-- ---------------------------------------------------------------------------
-- Digits of one kind or another
-- ---------------------------------------------------------------------------

section

variable {digit digit' : Char → Bool}

theorem IsRun.imp {cs : List Char} (h : IsRun digit cs)
    (himp : ∀ c ∈ cs, digit c = true → digit' c = true) : IsRun digit' cs :=
  ⟨h.ne_nil, fun c hc => himp c hc (h.digits c hc)⟩

theorem IsNumbers.imp {cs : List Char} (h : IsNumbers digit cs)
    (himp : ∀ c ∈ cs, digit c = true → digit' c = true) : IsNumbers digit' cs := by
  induction h with
  | single hrun => exact .single (hrun.imp himp)
  | dotted hrun _ ih =>
    simp only [List.forall_mem_append, List.forall_mem_cons] at himp
    exact .dotted (hrun.imp himp.1) (ih himp.2.2)

theorem IsSuffixes.imp {cs : List Char} (h : IsSuffixes digit cs)
    (himp : ∀ c ∈ cs, digit c = true → digit' c = true) : IsSuffixes digit' cs := by
  induction h with
  | nil => exact .nil
  | cons hname hnumber _ ih =>
    simp only [List.forall_mem_append, List.forall_mem_cons] at himp
    exact .cons hname (hnumber.imp_right fun hrun => hrun.imp himp.1.2.2) (ih himp.2)

theorem IsBase.imp {cs : List Char} (h : IsBase digit cs)
    (himp : ∀ c ∈ cs, digit c = true → digit' c = true) : IsBase digit' cs := by
  obtain ⟨numbers, letters, suffixes, rfl, hnumbers, hletters, hsuffixes⟩ := h
  simp only [List.forall_mem_append] at himp
  exact ⟨numbers, letters, suffixes, rfl, hnumbers.imp himp.1, hletters, hsuffixes.imp himp.2.2⟩

def isBaseMark (c : Char) : Bool :=
  isLetter c || c == '.' || c == '_'

theorem IsNumbers.mem {cs : List Char} (h : IsNumbers digit cs) :
    ∀ c ∈ cs, digit c = true ∨ isBaseMark c = true := by
  induction h with
  | single hrun => exact fun c hc => .inl (hrun.digits c hc)
  | dotted hrun _ ih =>
    simp only [List.forall_mem_append, List.forall_mem_cons]
    exact ⟨fun c hc => .inl (hrun.digits c hc), .inr (by decide), ih⟩

theorem IsLetters.mem {cs : List Char} (h : IsLetters cs) : ∀ c ∈ cs, isBaseMark c = true := by
  cases h with
  | none => simp
  | one hlow hhigh => simp [isBaseMark, isLetter, hlow, hhigh]

theorem isBaseMark_of_mem_name {name : String} (h : name ∈ ["alpha", "beta", "pre", "rc", "p"]) :
    ∀ c ∈ name.toList, isBaseMark c = true := by
  have hall : ∀ name ∈ ["alpha", "beta", "pre", "rc", "p"], name.toList.all isBaseMark = true := by
    decide
  exact List.all_eq_true.mp (hall name h)

theorem IsSuffixes.mem {cs : List Char} (h : IsSuffixes digit cs) :
    ∀ c ∈ cs, digit c = true ∨ isBaseMark c = true := by
  induction h with
  | nil => simp
  | cons hname hnumber _ ih =>
    simp only [List.forall_mem_append, List.forall_mem_cons]
    refine ⟨⟨.inr (by decide), fun c hc => .inr (isBaseMark_of_mem_name hname c hc), ?_⟩, ih⟩
    rcases hnumber with rfl | hrun
    · simp
    · exact fun c hc => .inl (hrun.digits c hc)

theorem IsBase.mem {cs : List Char} (h : IsBase digit cs) :
    ∀ c ∈ cs, digit c = true ∨ isBaseMark c = true := by
  obtain ⟨numbers, letters, suffixes, rfl, hnumbers, hletters, hsuffixes⟩ := h
  simp only [List.forall_mem_append]
  exact ⟨hnumbers.mem, fun c hc => .inr (hletters.mem c hc), hsuffixes.mem⟩

end

theorem isDecimal_of_isBaseMark {c : Char} (h : isBaseMark c = true) :
    Text.isDecimal c = false := by
  simp only [isBaseMark, Bool.or_eq_true, beq_iff_eq] at h
  rcases h with (h | rfl) | rfl
  · exact isDecimal_of_isLetter h
  · decide
  · decide

theorem IsRevision.isDigit {cs : List Char} (h : IsRevision cs) :
    ∀ c ∈ cs, Text.isDecimal c = true → Text.isDigit c = true := by
  cases h with
  | none => simp
  | one hrun _ =>
    simp only [List.forall_mem_cons]
    exact ⟨fun h => absurd h (by decide), fun h => absurd h (by decide),
      fun c hc _ => hrun.digits c hc⟩

theorem isVersion_isDigit_iff (cs : List Char) :
    IsVersion Text.isDigit cs ↔
      IsVersion Text.isDecimal cs ∧ ∀ c ∈ cs, Text.isDecimal c = true → Text.isDigit c = true := by
  constructor
  · rintro ⟨base, revision, rfl, hbase, hrevision⟩
    refine ⟨⟨base, revision, rfl, hbase.imp fun _ _ => Text.isDecimal_of_isDigit, hrevision⟩, ?_⟩
    simp only [List.forall_mem_append]
    refine ⟨fun c hc hdecimal => ?_, hrevision.isDigit⟩
    rcases hbase.mem c hc with h | h
    · exact h
    · rw [isDecimal_of_isBaseMark h] at hdecimal
      cases hdecimal
  · rintro ⟨⟨base, revision, rfl, hbase, hrevision⟩, hdigits⟩
    simp only [List.forall_mem_append] at hdigits
    exact ⟨base, revision, rfl, hbase.imp hdigits.1, hrevision⟩

-- ---------------------------------------------------------------------------
-- The base and the revision
-- ---------------------------------------------------------------------------

theorem isRun_isDecimal_iff (cs : List Char) : IsRun Text.isDecimal cs ↔ isNumeral cs = true := by
  rw [isNumeral, Bool.and_eq_true, Bool.not_eq_true', List.isEmpty_eq_false_iff, List.all_eq_true]
  exact ⟨fun h => ⟨h.ne_nil, h.digits⟩, fun h => ⟨h.1, h.2⟩⟩

theorem isNumbers_append (a : Numeral) (as : List Numeral) :
    IsNumbers Text.isDecimal (a.chars ++ as.flatMap ('.' :: ·.chars)) := by
  induction as generalizing a with
  | nil =>
    rw [List.flatMap_nil, List.append_nil]
    exact .single ((isRun_isDecimal_iff _).mpr a.isNumeral_chars)
  | cons b bs ih => exact .dotted ((isRun_isDecimal_iff _).mpr a.isNumeral_chars) (ih b)

theorem IsNumbers.exists_numerals {cs : List Char} (h : IsNumbers Text.isDecimal cs) :
    ∃ (a : Numeral) (as : List Numeral), a.chars ++ as.flatMap ('.' :: ·.chars) = cs := by
  induction h with
  | single hrun => exact ⟨⟨_, (isRun_isDecimal_iff _).mp hrun⟩, [], by simp⟩
  | dotted hrun _ ih =>
    obtain ⟨a, as, rfl⟩ := ih
    exact ⟨⟨_, (isRun_isDecimal_iff _).mp hrun⟩, a :: as, rfl⟩

theorem isLetters_map (l : Option Letter) : IsLetters (l.toList.map Letter.char) := by
  cases l with
  | none => exact .none
  | some l =>
    have hl := l.isLetter_char
    simp only [isLetter, Bool.and_eq_true, decide_eq_true_eq] at hl
    exact .one hl.1 hl.2

theorem IsLetters.exists_letter {cs : List Char} (h : IsLetters cs) :
    ∃ l : Option Letter, l.toList.map Letter.char = cs := by
  cases h with
  | none => exact ⟨.none, rfl⟩
  | one hlow hhigh => exact ⟨some ⟨_, by simp [isLetter, hlow, hhigh]⟩, rfl⟩

theorem isSuffixes_flatMap (ss : List Suffix) :
    IsSuffixes Text.isDecimal (ss.flatMap Suffix.chars) := by
  induction ss with
  | nil => exact .nil
  | cons s ss ih =>
    obtain ⟨name, hname, heq⟩ := SuffixKind.name_eq_toList s.kind
    rw [List.flatMap_cons, Suffix.chars, heq]
    refine .cons hname ?_ ih
    rw [Suffix.digits]
    cases s.number with
    | none => exact .inl rfl
    | some a => exact .inr ((isRun_isDecimal_iff _).mpr a.isNumeral_chars)

theorem IsSuffixes.exists_suffixes {cs : List Char} (h : IsSuffixes Text.isDecimal cs) :
    ∃ ss : List Suffix, ss.flatMap Suffix.chars = cs := by
  induction h with
  | nil => exact ⟨[], rfl⟩
  | cons hname hnumber _ ih =>
    obtain ⟨ss, rfl⟩ := ih
    obtain ⟨kind, hkind⟩ := SuffixKind.exists_name hname
    rw [← hkind]
    rcases hnumber with rfl | hrun
    · exact ⟨⟨kind, none⟩ :: ss, rfl⟩
    · exact ⟨⟨kind, some ⟨_, (isRun_isDecimal_iff _).mp hrun⟩⟩ :: ss, rfl⟩

theorem isBase_iff (cs : List Char) :
    IsBase Text.isDecimal cs ↔ ∃ v : Version, v.baseChars = cs := by
  constructor
  · rintro ⟨numbers, letters, suffixes, rfl, hnumbers, hletters, hsuffixes⟩
    obtain ⟨major, minors, rfl⟩ := hnumbers.exists_numerals
    obtain ⟨letter, rfl⟩ := hletters.exists_letter
    obtain ⟨suffixes, rfl⟩ := hsuffixes.exists_suffixes
    exact ⟨⟨major, minors, letter, suffixes, 0⟩, by simp [baseChars]⟩
  · rintro ⟨v, rfl⟩
    exact ⟨v.numberChars, v.letterChars, v.suffixChars, by simpa using append_eq_parts v [],
      isNumbers_append _ _, isLetters_map _, isSuffixes_flatMap _⟩

theorem number?_eq_some_iff (cs : List Char) (n : Nat) :
    Text.number? cs = some n ↔ IsRun Text.isDigit cs ∧ Text.numberOf cs = n := by
  have hrun : (!cs.isEmpty && cs.all Text.isDigit) = true ↔ IsRun Text.isDigit cs := by
    rw [Bool.and_eq_true, Bool.not_eq_true', List.isEmpty_eq_false_iff, List.all_eq_true]
    exact ⟨fun h => ⟨h.1, h.2⟩, fun h => ⟨h.ne_nil, h.digits⟩⟩
  rw [Text.number?, ← hrun]
  split
  next h => simp [h]
  next h => simp [h]

theorem IsRevision.stopsAt {cs : List Char} (h : IsRevision cs) : StopsAt (· != '-') cs := by
  cases h <;> simp

theorem readRevision_isOk_iff (text : String) (cs : List Char) :
    (∃ n, readRevision text cs = .ok n) ↔ IsRevision cs := by
  constructor
  · rintro ⟨n, h⟩
    rcases readRevision_ok h with ⟨rfl, -⟩ | ⟨ds, rfl, -, hvalue⟩
    · exact .none
    · obtain ⟨hrun, hvalue⟩ := (number?_eq_some_iff _ _).mp hvalue
      exact .one hrun (hvalue ▸ n.toNat_lt_size)
  · rintro (_ | ⟨hrun, hlt⟩)
    · exact ⟨0, rfl⟩
    · have hnumeral := (isRun_isDecimal_iff _).mp (hrun.imp fun _ _ => Text.isDecimal_of_isDigit)
      have hvalue := (number?_eq_some_iff _ _).mpr ⟨hrun, rfl⟩
      rw [readRevision, if_pos hnumeral, hvalue]
      exact ⟨_, if_pos hlt⟩

theorem readRevision_error (text : String) {cs : List Char} (h : ¬IsRevision cs) :
    (∃ ds, cs = '-' :: 'r' :: ds ∧ IsRun Text.isDecimal ds) ∧
        readRevision text cs = .error (.revisionOutOfRange text) ∨
      (¬∃ ds, cs = '-' :: 'r' :: ds ∧ IsRun Text.isDecimal ds) ∧
        readRevision text cs = .error (.malformed text) := by
  fun_cases readRevision text cs with
  | case1 => exact absurd .none h
  | case2 ds hnumeral n hn hlt =>
    obtain ⟨hrun, rfl⟩ := (number?_eq_some_iff _ _).mp hn
    exact absurd (.one hrun hlt) h
  | case3 ds hnumeral n hn hlt =>
    exact .inl ⟨⟨ds, rfl, (isRun_isDecimal_iff _).mpr hnumeral⟩, by simp⟩
  | case4 ds hnumeral hn =>
    exact .inl ⟨⟨ds, rfl, (isRun_isDecimal_iff _).mpr hnumeral⟩, by simp⟩
  | case5 ds hnumeral =>
    refine .inr ⟨?_, by simp⟩
    rintro ⟨es, heq, hrun⟩
    cases heq
    exact hnumeral ((isRun_isDecimal_iff _).mp hrun)
  | case6 cs hnil hmark =>
    refine .inr ⟨?_, by simp⟩
    rintro ⟨ds, rfl, -⟩
    exact hmark ds rfl

-- ---------------------------------------------------------------------------
-- The reader and the grammar
-- ---------------------------------------------------------------------------

theorem parse_isOk_iff (text : String) :
    (∃ v, parse text = .ok v) ↔ IsVersion Text.isDecimal text.toList := by
  constructor
  · rintro ⟨v, h⟩
    obtain ⟨hbase, hrevision⟩ := base_append_of_parse h
    exact ⟨v.baseChars, _, hbase.symm, (isBase_iff _).mpr ⟨v, rfl⟩,
      (readRevision_isOk_iff text _).mp ⟨_, hrevision⟩⟩
  · rintro ⟨base, revision, htext, hbase, hrevision⟩
    obtain ⟨v, rfl⟩ := (isBase_iff _).mp hbase
    obtain ⟨n, hn⟩ := (readRevision_isOk_iff text _).mpr hrevision
    exact ⟨{ v with revision := n }, by rw [parse_append v hrevision.stopsAt htext, hn]; rfl⟩

theorem parse_of_overrunsRevision {text : String} (h : OverrunsRevision text.toList) :
    parse text = .error (.revisionOutOfRange text) := by
  obtain ⟨base, ds, htext, hbase, hrun, hrevision⟩ := h
  obtain ⟨v, rfl⟩ := (isBase_iff _).mp hbase
  rw [parse_append v (by simp) htext]
  rcases readRevision_error text hrevision with ⟨-, herror⟩ | ⟨hnot, -⟩
  · rw [herror]
    rfl
  · exact absurd ⟨ds, rfl, hrun⟩ hnot

theorem parse_of_malformed {text : String} (h : ¬IsVersion Text.isDecimal text.toList)
    (hrange : ¬OverrunsRevision text.toList) : parse text = .error (.malformed text) := by
  rcases parse_cases text with herror | ⟨v, htext⟩
  · exact herror
  have hbase : IsBase Text.isDecimal v.baseChars := (isBase_iff _).mpr ⟨v, rfl⟩
  have hrevision : ¬IsRevision (text.toList.dropWhile (· != '-')) := fun hrevision =>
    h ⟨_, _, htext, hbase, hrevision⟩
  rw [parse_append v (stopsAt_dropWhile_hyphen _) htext]
  rcases readRevision_error text hrevision with ⟨⟨ds, hds, hrun⟩, -⟩ | ⟨-, herror⟩
  · rw [hds] at htext hrevision
    exact absurd ⟨_, ds, htext, hbase, hrun, hrevision⟩ hrange
  · rw [herror]
    rfl

/-- The reader accepts the texts of the grammar and gives an error for every other. Of these texts
those of the grammar with ASCII digits are the ones that hold no digit of another script. -/
theorem parse_accepts (text : String) :
    ((∃ v, parse text = .ok v) ↔ IsVersion Text.isDecimal text.toList) ∧
      (IsVersion Text.isDigit text.toList ↔ (∃ v, parse text = .ok v) ∧
        ∀ c ∈ text.toList, Text.isDecimal c = true → Text.isDigit c = true) ∧
      (IsVersion Text.isDecimal text.toList ∨ ∃ e, parse text = .error e ∧
        e.message = "Invalid version: " ++ e.reason ∧
        (OverrunsRevision text.toList ∧ e = .revisionOutOfRange text ∨
          ¬OverrunsRevision text.toList ∧ e = .malformed text)) := by
  refine ⟨parse_isOk_iff text, by rw [isVersion_isDigit_iff, parse_isOk_iff], ?_⟩
  by_cases hversion : IsVersion Text.isDecimal text.toList
  · exact .inl hversion
  by_cases hrange : OverrunsRevision text.toList
  · exact .inr ⟨_, parse_of_overrunsRevision hrange, rfl, .inl ⟨hrange, rfl⟩⟩
  · exact .inr ⟨_, parse_of_malformed hversion hrange, rfl, .inr ⟨hrange, rfl⟩⟩

theorem parse_arabicDigit :
    ∃ v, parse "\u0663" = .ok v ∧ ¬IsVersion Text.isDigit "\u0663".toList := by
  refine ⟨_, rfl, fun h => ?_⟩
  have hdigit := ((isVersion_isDigit_iff _).mp h).2 '\u0663' (by decide) (by decide)
  exact absurd hdigit (by decide)

-- ---------------------------------------------------------------------------
-- All texts of a version
-- ---------------------------------------------------------------------------

/-- The numbers, the first one among them. -/
def numbers (v : Version) : List Numeral :=
  v.major :: v.minors

/-- The texts that spell a version: the base, with a revision behind it unless that is zero. Zero
may be spelled out, and zeros may stand in front. -/
inductive Spells (v : Version) : String → Prop
  | base : v.revision = 0 → Spells v v.base
  | revision {ds : List Char} : IsRun Text.isDigit ds → Text.numberOf ds = v.revision.toNat →
      Spells v (v.base ++ "-r" ++ String.ofList ds)

theorem toList_base (v : Version) : v.base.toList = v.baseChars :=
  String.toList_ofList

theorem baseChars_eq (v : Version) :
    v.baseChars = ['.'].intercalate (v.numbers.map Numeral.chars) ++
      v.letter.toList.map Letter.char ++
      v.suffixes.flatMap fun s => '_' :: (s.kind.name ++ s.digits) := by
  rw [numbers, List.map_cons, Text.intercalate_cons, List.flatMap_map]
  rfl

theorem readRevision_of_isRun (text : String) {ds : List Char} {n : UInt64}
    (hrun : IsRun Text.isDigit ds) (hn : Text.numberOf ds = n.toNat) :
    readRevision text ('-' :: 'r' :: ds) = .ok n := by
  have hnumeral : isNumeral ds = true :=
    (isRun_isDecimal_iff _).mp (hrun.imp fun _ _ => Text.isDecimal_of_isDigit)
  have hvalue : Text.number? ds = some n.toNat := (number?_eq_some_iff _ _).mpr ⟨hrun, hn⟩
  simp [readRevision, hnumeral, hvalue, n.toNat_lt_size]

theorem parse_eq_ok_iff (text : String) (v : Version) : parse text = .ok v ↔ v.Spells text := by
  constructor
  · intro h
    obtain ⟨hbase, hrevision⟩ := base_append_of_parse h
    rcases readRevision_ok hrevision with ⟨hnil, hzero⟩ | ⟨ds, hds, -, hvalue⟩
    · have htext : text = v.base := by
        rw [← String.toList_inj, toList_base, ← hbase, hnil, List.append_nil]
      exact htext ▸ .base hzero
    · obtain ⟨hrun, hn⟩ := (number?_eq_some_iff _ _).mp hvalue
      have htext : text = v.base ++ "-r" ++ String.ofList ds := by
        rw [← String.toList_inj, ← hbase, hds]
        simp [String.toList_append, toList_base]
      exact htext ▸ .revision hrun hn
  · intro h
    cases h with
    | base hzero =>
      have htext : v.base.toList = v.baseChars ++ [] := by simp [toList_base]
      rw [parse_append v (Text.stopsAt_nil _) htext, readRevision, ← hzero]
      rfl
    | @revision ds hrun hn =>
      have htext : (v.base ++ "-r" ++ String.ofList ds).toList =
          v.baseChars ++ '-' :: 'r' :: ds := by
        simp [String.toList_append, toList_base]
      rw [parse_append v (by simp) htext, readRevision_of_isRun _ hrun hn]
      rfl

theorem toString_of_revision_eq_zero {v : Version} (h : v.revision = 0) : toString v = v.base := by
  have hchars : v.chars = v.baseChars := by simp [chars, revisionChars, h]
  exact congrArg String.ofList hchars

/-- Any digits of a revision other than zero tell how it is printed. -/
theorem toString_of_revision_ne_zero {v : Version} {ds : List Char} (h : v.revision ≠ 0)
    (hrun : IsRun Text.isDigit ds) (hn : Text.numberOf ds = v.revision.toNat) :
    toString v = v.base ++ "-r" ++ String.ofList (dropZeros ds) := by
  have hne : Text.numberOf ds ≠ 0 := by
    intro hzero
    exact h (UInt64.toNat_inj.mp (by simpa [hzero] using hn.symm))
  have hdigits : dropZeros ds = Text.digits v.revision.toNat := by
    rw [dropZeros, Text.dropWhile_zero_eq hrun.digits, if_neg hne, hn]
  show String.ofList v.chars = _
  rw [← String.toList_inj, String.toList_ofList]
  simp [chars, revisionChars, h, hdigits, String.toList_append, toList_base]

/-- A version is read from the texts that spell its parts, and from no others. Of these it prints
the one without revision zero and without zeros in front of any other. -/
theorem spelled_and_printed (text : String) (v : Version) :
    v.base = String.ofList (['.'].intercalate (v.numbers.map Numeral.chars) ++
        v.letter.toList.map Letter.char ++
        v.suffixes.flatMap fun s => '_' :: (s.kind.name ++ s.digits)) ∧
      (parse text = .ok v ↔ v.Spells text) ∧ parse (toString v) = .ok v ∧
      (v.revision = 0 → toString v = v.base) ∧
      ∀ ds, v.revision ≠ 0 → IsRun Text.isDigit ds → Text.numberOf ds = v.revision.toNat →
        toString v = v.base ++ "-r" ++ String.ofList (dropZeros ds) :=
  ⟨congrArg String.ofList v.baseChars_eq, parse_eq_ok_iff text v, parse_chars v,
    toString_of_revision_eq_zero, fun _ => toString_of_revision_ne_zero⟩

theorem spelled_and_printed_padded :
    ∃ v, parse "1.02b_pre3_p-r007" = .ok v ∧ v.Spells "1.02b_pre3_p-r007" ∧
      toString v = "1.02b_pre3_p-r7" ∧ parse "1.02b_pre3_p-r7" = .ok v := by
  obtain ⟨v, hparse, hrevision, hbase⟩ :
      ∃ v, parse "1.02b_pre3_p-r007" = .ok v ∧ v.revision = 7 ∧ v.base = "1.02b_pre3_p" :=
    ⟨_, rfl, rfl, rfl⟩
  obtain ⟨-, hspells, hprint, -, hprinted⟩ := spelled_and_printed "1.02b_pre3_p-r007" v
  have htext : toString v = "1.02b_pre3_p-r7" := by
    have hdigits : Text.numberOf "007".toList = v.revision.toNat := by simp [hrevision]; rfl
    have hrun : IsRun Text.isDigit "007".toList := ⟨by decide, List.all_eq_true.mp rfl⟩
    rw [hprinted "007".toList (by simp [hrevision]) hrun hdigits, hbase]
    rfl
  exact ⟨v, hparse, hspells.mp hparse, htext, htext ▸ hprint⟩

end Version

end PackageAlgebra
