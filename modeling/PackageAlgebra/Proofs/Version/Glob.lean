import Mathlib.Data.List.Basic
import PackageAlgebra.Proofs.Text.Cut
import PackageAlgebra.Proofs.Version.RoundTrip

/-!
# Where a glob cuts a version

The cut behind a glob falls between two digits of ASCII never, and between two
letters only inside the name of a suffix. As `p` is the only name that begins
another, a glob that ends in `_p` reaches `_pre`, and this is the only name that
a glob cuts in two.
-/

namespace PackageAlgebra

-- ---------------------------------------------------------------------------
-- Cuts inside a run
-- ---------------------------------------------------------------------------

namespace Text

/-- Whether the text is cut between two characters of the class. -/
def cutsRun (p : Char → Bool) (before behind : List Char) : Bool :=
  before.getLast?.any p && behind.head?.any p

def Apart (p : Char → Bool) (cs : List Char) : Prop :=
  ∀ before behind, cs = before ++ behind → cutsRun p before behind = false

variable {p : Char → Bool} {before behind front rest : List Char}

theorem cutsRun_of_forall (h : ∀ c ∈ before, p c = false) : cutsRun p before behind = false := by
  rw [cutsRun, Bool.and_eq_false_iff]
  left
  cases hlast : before.getLast? with
  | none => rfl
  | some c => exact h c (List.mem_of_getLast? hlast)

theorem cutsRun_of_stopsAt (h : StopsAt p behind) : cutsRun p before behind = false := by
  rw [cutsRun, Bool.and_eq_false_iff]
  right
  cases hhead : behind.head? with
  | none => rfl
  | some c => exact h c hhead

theorem cutsRun_eq_true_iff : cutsRun p before behind = true ↔
    (∃ c ∈ before.getLast?, p c = true) ∧ ∃ d ∈ behind.head?, p d = true := by
  simp [cutsRun, Option.any_eq_true]

theorem ne_nil_of_cutsRun (h : cutsRun p before behind = true) : before ≠ [] := by
  rintro rfl
  cases h

theorem cutsRun_append (hne : before ≠ []) :
    cutsRun p (front ++ before) behind = cutsRun p before behind := by
  rw [cutsRun, cutsRun, List.getLast?_append_of_ne_nil front hne]

theorem cut_inside_or_behind (hjoin : before ++ behind = front ++ rest)
    (hcut : cutsRun p before behind = true) (hborder : cutsRun p front rest = false) :
    (∃ inner, inner ≠ [] ∧ front = before ++ inner ∧ behind = inner ++ rest) ∨
      ∃ inner, before = front ++ inner ∧ inner ++ behind = rest ∧
        cutsRun p inner behind = true := by
  rcases List.append_eq_append_iff.mp hjoin with ⟨inner, rfl, rfl⟩ | ⟨inner, rfl, rfl⟩
  · refine .inl ⟨inner, ?_, rfl, rfl⟩
    rintro rfl
    rw [List.append_nil] at hborder
    rw [List.nil_append, hborder] at hcut
    cases hcut
  · have hne : inner ≠ [] := by
      rintro rfl
      rw [List.append_nil, ← List.nil_append behind, hborder] at hcut
      cases hcut
    rw [cutsRun_append hne] at hcut
    exact .inr ⟨inner, rfl, rfl, hcut⟩

theorem cut_behind (hjoin : before ++ behind = front ++ rest)
    (hcut : cutsRun p before behind = true) (hfront : Apart p front)
    (hborder : cutsRun p front rest = false) :
    ∃ inner, before = front ++ inner ∧ inner ++ behind = rest ∧
      cutsRun p inner behind = true := by
  rcases cut_inside_or_behind hjoin hcut hborder with ⟨inner, hne, rfl, rfl⟩ | hbehind
  · have hinside : cutsRun p before inner = false := hfront before inner rfl
    obtain ⟨c, inner, rfl⟩ := List.exists_cons_of_ne_nil hne
    exact absurd hcut (by simpa [cutsRun] using hinside)
  · exact hbehind

theorem Apart.of_forall {cs : List Char} (h : ∀ c ∈ cs, p c = false) : Apart p cs := by
  rintro before behind rfl
  exact cutsRun_of_forall fun c hc => h c (List.mem_append_left _ hc)

theorem Apart.append (hfront : Apart p front) (hrest : Apart p rest)
    (hborder : cutsRun p front rest = false) : Apart p (front ++ rest) := by
  intro before behind hjoin
  rw [Bool.eq_false_iff]
  intro hcut
  obtain ⟨inner, -, hinner, hcut⟩ := cut_behind hjoin.symm hcut hfront hborder
  rw [hrest inner behind hinner.symm] at hcut
  cases hcut

theorem apart_singleton (c : Char) : Apart p [c] := by
  intro before behind h
  rcases List.append_eq_singleton_iff.mp h.symm with ⟨rfl, rfl⟩ | ⟨rfl, rfl⟩
  · rfl
  · simp [cutsRun]

end Text

open Text (StopsAt Apart cutsRun cutsRun_eq_true_iff cutsRun_of_forall cutsRun_of_stopsAt cut_behind
  cut_inside_or_behind)

-- ---------------------------------------------------------------------------
-- Letters in a version
-- ---------------------------------------------------------------------------

theorem isLetter_of_isDecimal {c : Char} (h : Text.isDecimal c = true) : isLetter c = false := by
  rw [Bool.eq_false_iff]
  intro hletter
  rw [isDecimal_of_isLetter hletter] at h
  cases h

namespace SuffixKind

theorem isLetter_of_mem_name (kind : SuffixKind) : ∀ c ∈ kind.name, isLetter c = true := by
  cases kind <;> exact List.all_eq_true.mp (by decide)

theorem eq_of_name_append {kind longer : SuffixKind} {finish : List Char}
    (h : longer.name = kind.name ++ finish) (hne : finish ≠ []) :
    kind = .p ∧ longer = .pre ∧ finish = ['r', 'e'] := by
  cases kind <;> cases longer <;> simp_all [name]

end SuffixKind

namespace Suffix

theorem isLetter_of_mem_digits {s : Suffix} : ∀ c ∈ s.digits, isLetter c = false :=
  fun c hc => isLetter_of_isDecimal (isDecimal_of_mem_digits c hc)

theorem stopsAt_flatMap_append (ss : List Suffix) {tail : List Char}
    (htail : StopsAt isLetter tail) : StopsAt isLetter (ss.flatMap chars ++ tail) := by
  cases ss with
  | nil => exact htail
  | cons s ss => exact Text.stopsAt_cons.mpr (by decide)

theorem exists_of_cut {ss : List Suffix} {tail before behind : List Char}
    (htail : Apart isLetter tail) (hstops : StopsAt isLetter tail)
    (hjoin : before ++ behind = ss.flatMap chars ++ tail)
    (hcut : cutsRun isLetter before behind = true) :
    ∃ front s rest start finish, ss = front ++ s :: rest ∧ s.kind.name = start ++ finish ∧
      start ≠ [] ∧ finish ≠ [] ∧ before = front.flatMap chars ++ '_' :: start := by
  induction ss generalizing before with
  | nil =>
    rw [List.flatMap_nil, List.nil_append] at hjoin
    rw [htail before behind hjoin.symm] at hcut
    cases hcut
  | cons s ss ih =>
    have hrest := stopsAt_flatMap_append ss hstops
    have hname : StopsAt isLetter (s.digits ++ (ss.flatMap chars ++ tail)) :=
      StopsAt.append (fun c hc => isLetter_of_mem_digits c (List.mem_of_head? hc)) hrest
    have hparts : before ++ behind =
        ['_'] ++ (s.kind.name ++ (s.digits ++ (ss.flatMap chars ++ tail))) := by
      simpa [chars] using hjoin
    have hmark : ∀ c ∈ ['_'], isLetter c = false := List.forall_mem_singleton.mpr (by decide)
    obtain ⟨before, rfl, hjoin, hcut⟩ :=
      cut_behind hparts hcut (.of_forall hmark) (cutsRun_of_forall hmark)
    rcases cut_inside_or_behind hjoin hcut (cutsRun_of_stopsAt hname) with
      ⟨finish, hne, heq, rfl⟩ | ⟨before, rfl, hjoin, hcut⟩
    · exact ⟨[], s, ss, before, finish, rfl, heq, Text.ne_nil_of_cutsRun hcut, hne, rfl⟩
    · obtain ⟨before, rfl, hjoin, hcut⟩ := cut_behind hjoin hcut (.of_forall isLetter_of_mem_digits)
        (cutsRun_of_forall isLetter_of_mem_digits)
      obtain ⟨front, t, rest, start, finish, rfl, hkind, hstart, hfinish, rfl⟩ := ih hjoin hcut
      exact ⟨s :: front, t, rest, start, finish, rfl, hkind, hstart, hfinish, by simp [chars]⟩

end Suffix

namespace Version

theorem chars_injective : Function.Injective chars := by
  intro v w h
  have hparse := parse_chars v
  rw [h, parse_chars] at hparse
  exact (Except.ok.inj hparse).symm

theorem isLetter_of_mem_numberChars {v : Version} : ∀ c ∈ v.numberChars, isLetter c = false := by
  intro c hc
  rw [Bool.eq_false_iff]
  intro hletter
  have hnumbers := inNumbers_of_mem_numberChars c hc
  rw [inNumbers_of_isLetter hletter] at hnumbers
  cases hnumbers

theorem apart_letterChars (v : Version) : Apart isLetter v.letterChars := by
  rw [letterChars]
  cases v.letter with
  | none => exact .of_forall (by simp)
  | some l => exact Text.apart_singleton l.char

theorem isLetter_of_mem_revisionDigits {n : Nat} :
    ∀ c ∈ Text.digits n, isLetter c = false :=
  fun c hc => isLetter_of_isDecimal (Text.isDecimal_of_isDigit (Text.isDigit_of_mem_digits c hc))

theorem apart_revisionChars (v : Version) : Apart isLetter v.revisionChars := by
  rw [revisionChars]
  split
  · exact .of_forall (by simp)
  · have hdigits := isLetter_of_mem_revisionDigits (n := v.revision.toNat)
    have hmark : ∀ c ∈ ['-'], isLetter c = false := List.forall_mem_singleton.mpr (by decide)
    have hbehind : Apart isLetter (['r'] ++ Text.digits v.revision.toNat) :=
      (Text.apart_singleton 'r').append (.of_forall hdigits)
        (cutsRun_of_stopsAt fun c hc => hdigits c (List.mem_of_head? hc))
    exact (Apart.of_forall hmark).append hbehind (cutsRun_of_forall hmark)

theorem exists_of_cut {v : Version} {before behind : List Char} (hjoin : before ++ behind = v.chars)
    (hcut : cutsRun isLetter before behind = true) :
    ∃ front s rest start finish, v.suffixes = front ++ s :: rest ∧
      s.kind.name = start ++ finish ∧ start ≠ [] ∧ finish ≠ [] ∧
      before =
        (v.numberChars ++ (v.letterChars ++ front.flatMap Suffix.chars)) ++ '_' :: start := by
  have hnumbers := isLetter_of_mem_numberChars (v := v)
  have hstops : StopsAt isLetter v.revisionChars := by
    rw [revisionChars]
    split
    · exact Text.stopsAt_nil _
    · exact Text.stopsAt_cons.mpr (by decide)
  have hborder : StopsAt isLetter (v.suffixChars ++ v.revisionChars) :=
    Suffix.stopsAt_flatMap_append v.suffixes hstops
  rw [chars_eq_parts] at hjoin
  obtain ⟨before, rfl, hjoin, hcut⟩ :=
    cut_behind hjoin hcut (.of_forall hnumbers) (cutsRun_of_forall hnumbers)
  obtain ⟨before, rfl, hjoin, hcut⟩ :=
    cut_behind hjoin hcut v.apart_letterChars (cutsRun_of_stopsAt hborder)
  obtain ⟨front, s, rest, start, finish, hsuffixes, hkind, hstart, hfinish, rfl⟩ :=
    Suffix.exists_of_cut v.apart_revisionChars hstops hjoin hcut
  exact ⟨front, s, rest, start, finish, hsuffixes, hkind, hstart, hfinish, by simp⟩

theorem underscore_not_mem {v : Version} : '_' ∉ v.numberChars ++ v.letterChars := by
  intro hc
  rcases List.mem_append.mp hc with hc | hc
  · exact absurd (inNumbers_of_mem_numberChars _ hc) (by decide)
  · obtain ⟨l, -, hl⟩ := List.mem_map.mp hc
    exact absurd (hl ▸ l.isLetter_char) (by decide)

theorem revision_eq_zero_of_getLast? {w : Version} {c : Char} (h : c ∈ w.chars.getLast?)
    (hletter : isLetter c = true) : w.revision = 0 := by
  by_contra hne
  have hdigits : Text.digits w.revision.toNat ≠ [] := Nat.toDigits_ne_nil
  have hchars : w.chars = (w.baseChars ++ ['-', 'r']) ++ Text.digits w.revision.toNat := by
    simp [chars, revisionChars, hne]
  rw [hchars, List.getLast?_append_of_ne_nil _ hdigits] at h
  rw [isLetter_of_mem_revisionDigits c (List.mem_of_getLast? h)] at hletter
  cases hletter

theorem exists_name_of_chars {w : Version} {before start : List Char}
    (h : w.chars = before ++ '_' :: start) (hne : start ≠ [])
    (hletters : ∀ c ∈ start, isLetter c = true) : ∃ kind : SuffixKind, kind.name = start := by
  have hmark : '_' ∉ start := fun hc => absurd (hletters _ hc) (by decide)
  have hzero : w.revision = 0 := by
    have hlast := List.getLast?_eq_some_getLast hne
    have hletter := hletters _ (List.getLast_mem hne)
    refine revision_eq_zero_of_getLast? (c := start.getLast hne) ?_ hletter
    rw [h, List.getLast?_append_of_ne_nil _ (List.cons_ne_nil _ _), List.getLast?_cons, hlast]
    rfl
  rw [chars_eq_parts, revisionChars, if_pos hzero, List.append_nil] at h
  rcases List.eq_nil_or_concat w.suffixes with hnil | ⟨init, s, hconcat⟩
  · rw [suffixChars, hnil, List.flatMap_nil, List.append_nil] at h
    exact absurd (by simp [h]) (underscore_not_mem (v := w))
  · have hcut := congrArg (Text.cutLast? '_') h
    have hname : '_' ∉ s.kind.name ++ s.digits := Suffix.not_mem_name_digits (.inl rfl)
    have hchars : w.numberChars ++ (w.letterChars ++ w.suffixChars) =
        (w.numberChars ++ (w.letterChars ++ init.flatMap Suffix.chars)) ++
          '_' :: (s.kind.name ++ s.digits) := by
      simp [suffixChars, hconcat, Suffix.chars]
    rw [hchars, Text.cutLast?_append_cons hname, Text.cutLast?_append_cons hmark] at hcut
    obtain ⟨-, heq⟩ := Prod.mk.inj (Option.some.inj hcut)
    -- a digit behind the name would be a letter
    have hdigits : s.digits = [] := List.eq_nil_iff_forall_not_mem.mpr fun c hc => by
      have hletter := hletters c (by rw [← heq]; exact List.mem_append_right _ hc)
      rw [Suffix.isLetter_of_mem_digits c hc] at hletter
      cases hletter
    exact ⟨s.kind, by rw [← heq, hdigits, List.append_nil]⟩

-- ---------------------------------------------------------------------------
-- What a glob reaches
-- ---------------------------------------------------------------------------

/-- The printed version begins with the other one, and goes on neither inside a run of digits nor
inside a name. -/
def BeginsWith (v w : Version) : Prop :=
  ∃ rest, v.chars = w.chars ++ rest ∧ cutsRun Text.isDecimal w.chars rest = false ∧
    cutsRun isLetter w.chars rest = false

/-- Where the one version ends with `_p` the other one has `_pre`, and up to there they agree. -/
def GoesOnAsPre (v w : Version) : Prop :=
  ∃ front number rest, v.suffixes = front ++ ⟨.pre, number⟩ :: rest ∧
    w = { v with suffixes := front ++ [⟨.p, none⟩], revision := 0 }

/-- The printed version begins with the other one and goes on inside a run of digits, and one of
the two digits at the cut is of another script than ASCII. -/
def GoesOnInScript (v w : Version) : Prop :=
  ∃ rest, v.chars = w.chars ++ rest ∧ cutsRun Text.isDecimal w.chars rest = true ∧
    cutsRun Text.isDigit w.chars rest = false

theorem chars_endingInP (v : Version) (front : List Suffix) :
    ({ v with suffixes := front ++ [⟨.p, none⟩], revision := 0 } : Version).chars =
      (v.numberChars ++ (v.letterChars ++ front.flatMap Suffix.chars)) ++ ['_', 'p'] := by
  simp [chars_eq_parts, numberChars, letterChars, suffixChars, revisionChars, Suffix.chars,
    Suffix.digits, SuffixKind.name]

/-- A printed version goes on inside a name only where that is `pre` and was `p`. -/
theorem goesOnAsPre_iff (v w : Version) :
    v.GoesOnAsPre w ↔ ∃ rest, v.chars = w.chars ++ rest ∧ cutsRun isLetter w.chars rest = true := by
  constructor
  · rintro ⟨front, number, rest, hsuffixes, rfl⟩
    refine ⟨['r', 'e'] ++ (Suffix.digits ⟨.pre, number⟩ ++
      (rest.flatMap Suffix.chars ++ v.revisionChars)), ?_, ?_⟩
    · rw [chars_endingInP, chars_eq_parts, suffixChars, hsuffixes]
      simp [Suffix.chars, SuffixKind.name]
    · rw [chars_endingInP, cutsRun, List.getLast?_append_of_ne_nil _ (List.cons_ne_nil _ _)]
      rfl
  · rintro ⟨rest, hjoin, hcut⟩
    obtain ⟨front, s, behind, start, finish, hsuffixes, hname, hstart, hfinish, hchars⟩ :=
      exists_of_cut hjoin.symm hcut
    have hletters : ∀ c ∈ start, isLetter c = true := fun c hc =>
      s.kind.isLetter_of_mem_name c (by rw [hname]; exact List.mem_append_left _ hc)
    obtain ⟨kind, rfl⟩ := exists_name_of_chars hchars hstart hletters
    obtain ⟨rfl, hpre, -⟩ := SuffixKind.eq_of_name_append hname hfinish
    obtain ⟨longer, number⟩ := s
    obtain rfl : longer = .pre := hpre
    refine ⟨front, number, behind, hsuffixes, chars_injective ?_⟩
    rw [hchars, chars_endingInP]
    rfl

theorem matchesGlob_toString_iff (v w : Version) :
    v.matchesGlob (toString w) = true ↔
      ∃ rest, v.chars = w.chars ++ rest ∧ cutsRun Text.isDigit w.chars rest = false := by
  have hstart : (toString w).toList = w.chars := String.toList_ofList
  rw [matchesGlob, hstart]
  split
  next hnone =>
    refine iff_of_false Bool.false_ne_true ?_
    rintro ⟨rest, hjoin, -⟩
    rw [hjoin, Text.isPrefixOf?_append] at hnone
    cases hnone
  next rest hrest =>
    have hjoin := Text.eq_append_of_isPrefixOf? hrest
    rw [Bool.not_eq_true']
    constructor
    · intro hcut
      exact ⟨rest, hjoin, hcut⟩
    · rintro ⟨rest', hjoin', hcut⟩
      rw [hjoin, List.append_cancel_left_eq] at hjoin'
      rwa [← hjoin'] at hcut

theorem cutsRun_isDigit_of_isDecimal {before behind : List Char}
    (h : cutsRun Text.isDecimal before behind = false) :
    cutsRun Text.isDigit before behind = false := by
  rw [Bool.eq_false_iff]
  intro hcut
  obtain ⟨⟨c, hc, hdigit⟩, d, hd, hdigit'⟩ := cutsRun_eq_true_iff.mp hcut
  rw [cutsRun_eq_true_iff.mpr ⟨⟨c, hc, Text.isDecimal_of_isDigit hdigit⟩, d, hd,
    Text.isDecimal_of_isDigit hdigit'⟩] at h
  cases h

theorem cutsRun_isDigit_of_isLetter {before behind : List Char}
    (h : cutsRun isLetter before behind = true) : cutsRun Text.isDigit before behind = false := by
  rw [Bool.eq_false_iff]
  intro hcut
  obtain ⟨⟨c, hc, hletter⟩, -⟩ := cutsRun_eq_true_iff.mp h
  obtain ⟨⟨d, hd, hdigit⟩, -⟩ := cutsRun_eq_true_iff.mp hcut
  obtain rfl : c = d := Option.mem_unique hc hd
  rw [isLetter_of_isDecimal (Text.isDecimal_of_isDigit hdigit)] at hletter
  cases hletter

/-- A glob reaches the versions that begin with it and go on with another part, and beside them
two kinds that begin with it and go on with the same part: `_pre` where the glob ends with `_p`,
and a longer number where one of the digits at the cut is none of ASCII. -/
theorem matchesGlob_reaches (v w : Version) :
    (v.matchesGlob (toString w) = true ↔
      v.BeginsWith w ∨ v.GoesOnAsPre w ∨ v.GoesOnInScript w) ∧
    ¬(v.BeginsWith w ∧ (v.GoesOnAsPre w ∨ v.GoesOnInScript w)) := by
  rw [matchesGlob_toString_iff, goesOnAsPre_iff]
  constructor
  · constructor
    · rintro ⟨rest, hjoin, hdigit⟩
      cases hletter : cutsRun isLetter w.chars rest with
      | true => exact .inr (.inl ⟨rest, hjoin, hletter⟩)
      | false =>
        cases hdecimal : cutsRun Text.isDecimal w.chars rest with
        | true => exact .inr (.inr ⟨rest, hjoin, hdecimal, hdigit⟩)
        | false => exact .inl ⟨rest, hjoin, hdecimal, hletter⟩
    · rintro (⟨rest, hjoin, hdecimal, -⟩ | ⟨rest, hjoin, hletter⟩ | ⟨rest, hjoin, -, hdigit⟩)
      · exact ⟨rest, hjoin, cutsRun_isDigit_of_isDecimal hdecimal⟩
      · exact ⟨rest, hjoin, cutsRun_isDigit_of_isLetter hletter⟩
      · exact ⟨rest, hjoin, hdigit⟩
  · rintro ⟨⟨rest, hjoin, hdecimal, hletter⟩,
      ⟨rest', hjoin', hletter'⟩ | ⟨rest', hjoin', hdecimal', -⟩⟩
    · rw [hjoin, List.append_cancel_left_eq] at hjoin'
      rw [← hjoin', hletter] at hletter'
      cases hletter'
    · rw [hjoin, List.append_cancel_left_eq] at hjoin'
      rw [← hjoin', hdecimal] at hdecimal'
      cases hdecimal'

theorem matchesGlob_pre :
    ∃ v w, parse "1_pre1" = .ok v ∧ parse "1_p" = .ok w ∧ v.matchesGlob (toString w) = true ∧
      ¬v.BeginsWith w := by
  refine ⟨⟨⟨['1'], rfl⟩, [], none, [⟨.pre, some ⟨['1'], rfl⟩⟩], 0⟩,
    ⟨⟨['1'], rfl⟩, [], none, [⟨.p, none⟩], 0⟩, rfl, rfl, rfl, ?_⟩
  rintro ⟨rest, hjoin, -, hletter⟩
  have hrest : ['1', '_', 'p'] ++ ['r', 'e', '1'] = ['1', '_', 'p'] ++ rest := hjoin
  rw [List.append_cancel_left_eq] at hrest
  rw [← hrest] at hletter
  exact absurd hletter (by decide)

end Version

end PackageAlgebra
