import PackageAlgebra.CommandLine.Reply
import PackageAlgebra.Proofs.Except
import PackageAlgebra.Proofs.Pattern.Escape
import PackageAlgebra.Proofs.Text.Cut
import PackageAlgebra.Query.Filter

/-!
# Tests by pattern

A text that is a pattern makes a test for the values that it matches from end to
end, if it stays between the anchors: where it closes a bracket that it has not
opened, it may make a test though it is no pattern.
-/

namespace PackageAlgebra.ValueTest

open Pattern

/-- The text is a pattern by itself, it does not end in a comment, and between the anchors it is
within the limits for patterns. -/
def IsTestable (cs : List Char) (p : Pattern) : Prop :=
  ∃ height, readPattern? cs = some (p, height) ∧ ¬EndsInComment cs ∧
    height + 2 ≤ maxTreeHeight ∧ (betweenEnds p).isSmall = true

theorem holds_betweenEnds (p : Pattern) (v : Value) :
    (ValueTest.pattern (betweenEnds p)).holds v = true ↔
      p.Matches v.display.toList.toArray 0 v.display.toList.length := by
  rw [holds, search_betweenEnds]

theorem ofPattern_eq_ok_iff {text : String} {test : ValueTest} :
    ofPattern text = .ok test ↔
      ∃ p, parse? (anchored text.toList) = some p ∧ test = .pattern p := by
  rw [ofPattern]
  cases parse? (anchored text.toList) with
  | none => simp
  | some p => simp [eq_comm]

theorem parse?_anchored_of_isTestable {cs : List Char} {p : Pattern} (h : IsTestable cs p) :
    parse? (anchored cs) = some (betweenEnds p) := by
  obtain ⟨height, hread, hcomment, hheight, hsmall⟩ := h
  rw [parse?_eq, readPattern?_anchored hread hcomment]
  simp [hheight, hsmall]

/-- What is accepted between the anchors is accepted for what it is by itself, or else it closes
the group around it. -/
theorem isTestable_of_parse?_anchored {cs : List Char} {q : Pattern}
    (h : parse? (anchored cs) = some q) :
    (∃ p, IsTestable cs p ∧ q = betweenEnds p) ∨
      readPattern? cs = none ∧ Reader.ClosesUnopened .initial cs := by
  rw [parse?_eq] at h
  obtain ⟨⟨q', height'⟩, hanchored, hq⟩ := Option.bind_eq_some_iff.mp h
  cases hread : readPattern? cs with
  | none =>
    refine .inr ⟨rfl, Classical.byContradiction fun hclose => ?_⟩
    rw [readPattern?_anchored_of_none hread hclose] at hanchored
    cases hanchored
  | some found =>
    obtain ⟨p, height⟩ := found
    by_cases hcomment : EndsInComment cs
    · rw [readPattern?_anchored_of_comment hcomment] at hanchored
      cases hanchored
    · rw [readPattern?_anchored hread hcomment] at hanchored
      cases hanchored
      simp only [Option.ite_none_right_eq_some, Bool.and_eq_true, decide_eq_true_eq,
        Option.some.injEq] at hq
      obtain ⟨⟨hheight, hsmall⟩, rfl⟩ := hq
      exact .inl ⟨p, ⟨height, hread, hcomment, hheight, hsmall⟩, rfl⟩

/-- A text makes a test exactly if it is a pattern that stays between the anchors, and then the
test says what the pattern matches from end to end. Only a text that is no pattern, for it closes
a bracket that it has not opened, may make a test besides. -/
theorem ofPattern_matches_whole (text : String) :
    (∀ test, ofPattern text = .ok test →
      (∃ p, IsTestable text.toList p ∧ ∀ v : Value,
        test.holds v = true ↔ p.Matches v.display.toList.toArray 0 v.display.toList.length) ∨
      readPattern? text.toList = none ∧ Reader.ClosesUnopened .initial text.toList) ∧
    ((∃ p, IsTestable text.toList p) → ∃ test, ofPattern text = .ok test) ∧
    ∀ e, ofPattern text = .error e → e = .badPattern text := by
  refine ⟨fun test h => ?_, fun h => ?_, fun e h => ?_⟩
  · obtain ⟨q, hq, rfl⟩ := ofPattern_eq_ok_iff.mp h
    refine (isTestable_of_parse?_anchored hq).imp_left ?_
    rintro ⟨p, hp, rfl⟩
    exact ⟨p, hp, holds_betweenEnds p⟩
  · obtain ⟨p, hp⟩ := h
    exact ⟨_, ofPattern_eq_ok_iff.mpr ⟨_, parse?_anchored_of_isTestable hp, rfl⟩⟩
  · rw [ofPattern] at h
    split at h
    · cases h
    · cases h
      rfl

theorem isTestable_alternatives :
    IsTestable "a|bc".toList (.alt (.literal ['a']) (.literal ['b', 'c'])) := by
  refine ⟨2, by decide +kernel, ?_, by decide, by decide +kernel⟩
  rintro ⟨-, h⟩
  revert h
  decide +kernel

theorem ofPattern_matches_whole_alternatives :
    ∃ test, ofPattern "a|bc" = .ok test ∧
      ∀ v : Value, test.holds v = true ↔
        (Pattern.alt (.literal ['a']) (.literal ['b', 'c'])).Matches
          v.display.toList.toArray 0 v.display.toList.length := by
  obtain ⟨hsound, haccepts, -⟩ := ofPattern_matches_whole "a|bc"
  obtain ⟨test, htest⟩ := haccepts ⟨_, isTestable_alternatives⟩
  obtain ⟨height, hread, -⟩ := isTestable_alternatives
  refine ⟨test, htest, ?_⟩
  rcases hsound test htest with ⟨p, ⟨height', hp, -⟩, hholds⟩ | ⟨hnone, -⟩
  · rw [hread] at hp
    cases hp
    exact hholds
  · rw [hread] at hnone
    cases hnone

/-- No pattern, but between the anchors the brackets pair up with those of the anchors, and what
stands in front of the bar need not go on to the end. -/
theorem ofPattern_unopened :
    readPattern? "a)|(?:b".toList = none ∧
      ∃ test, ofPattern "a)|(?:b" = .ok test ∧ test.holds (.text "ax") = true := by
  have hsearch : (parse? (anchored "a)|(?:b".toList)).any (·.search "ax".toList) = true := by
    decide +kernel
  obtain ⟨p, hp, hfound⟩ := (Option.any_eq_true _ _).mp hsearch
  exact ⟨by decide +kernel, .pattern p, ofPattern_eq_ok_iff.mpr ⟨p, hp, rfl⟩, hfound⟩

/-- The test for values that read as a text. -/
def displays (text : String) : ValueTest :=
  .pattern (betweenEnds (ofText text.toList))

theorem holds_displays (text : String) (v : Value) :
    (displays text).holds v = true ↔ v.display = text := by
  rw [displays, holds_betweenEnds, matches_ofText, String.toList_inj]

theorem utf8ByteSize_eq (text : String) :
    (text.toList.flatMap String.utf8EncodeChar).length = text.utf8ByteSize := by
  have hbytes : text.toList.utf8Encode.size = text.utf8ByteSize := by
    rw [String.utf8Encode_toList, String.size_toByteArray]
  rwa [List.utf8Encode, List.size_toByteArray] at hbytes

theorem ofPattern_escape (text : String) :
    ofPattern (String.ofList (escape text.toList)) =
      if text.utf8ByteSize ≤ literalLimit then .ok (displays text)
      else .error (.badPattern (String.ofList (escape text.toList))) := by
  rw [ofPattern, String.toList_ofList, parse?_anchored_escape, utf8ByteSize_eq]
  by_cases hsize : text.utf8ByteSize ≤ literalLimit
  · rw [if_pos hsize, if_pos hsize]
    rfl
  · rw [if_neg hsize, if_neg hsize]

end PackageAlgebra.ValueTest

namespace PackageAlgebra.CommandLine

def spellCondition (condition : String × String) : String :=
  condition.1 ++ "=" ++ condition.2

def IsConditionName (name : String) : Prop :=
  name ≠ "" ∧ '=' ∉ name.toList

theorem splitCondition_spellCondition {name : String} (h : IsConditionName name) (text : String) :
    splitCondition (spellCondition (name, text)) = .ok (name, text) := by
  obtain ⟨hne, hsign⟩ := h
  have hjoined : (spellCondition (name, text)).toList = name.toList ++ '=' :: text.toList := by
    simp [spellCondition]
  rw [splitCondition, hjoined, Text.cutFirst?_append_cons hsign]
  cases hname : name.toList with
  | nil => exact absurd (String.toList_eq_nil_iff.mp hname) hne
  | cons c cs =>
    change Except.ok (String.ofList (c :: cs), String.ofList text.toList) = .ok (name, text)
    rw [← hname, String.ofList_toList, String.ofList_toList]

theorem attributeCondition_spellCondition {name : String} (h : IsConditionName name)
    (text : String) :
    attributeCondition literalPattern (spellCondition (name, text)) =
      if text.utf8ByteSize ≤ Pattern.literalLimit then
        .ok (.attribute (.ofName name) (.displays text))
      else .error (.of (.badPattern (literalPattern text))) := by
  have htest := ValueTest.ofPattern_escape text
  rw [← literalPattern] at htest
  rw [attributeCondition, splitCondition_spellCondition h]
  by_cases hsize : text.utf8ByteSize ≤ Pattern.literalLimit
  · rw [if_pos hsize] at htest ⊢
    simp only [bind, Except.bind, htest]
    rfl
  · rw [if_neg hsize] at htest ⊢
    simp only [bind, Except.bind, htest]
    rfl

/-- Whatever else is asked for, a condition is taken for the text behind its first equals sign, and
is met by the values that read as this text. -/
theorem filterOf_spellCondition {atom : Option String} {patterns : List String}
    {atoms : List Atom} {matching : List (Condition PackageRecord)}
    (conditions : List (String × String)) (hnames : ∀ c ∈ conditions, IsConditionName c.1)
    (hsizes : ∀ c ∈ conditions, c.2.utf8ByteSize ≤ Pattern.literalLimit)
    (hatoms : atom.toList.mapM parseAtom = .ok atoms)
    (hmatching : patterns.mapM (attributeCondition id) = .ok matching) :
    filterOf atom (conditions.map spellCondition) patterns =
        .ok ⟨atoms.map .atom ++
          conditions.map (fun c => .attribute (.ofName c.1) (.displays c.2)) ++ matching⟩ ∧
      ∀ c ∈ conditions, ∀ v : Value, (ValueTest.displays c.2).holds v = true ↔ v.display = c.2 := by
  refine ⟨?_, fun c _ => ValueTest.holds_displays c.2⟩
  have hliteral : (conditions.map spellCondition).mapM (attributeCondition literalPattern) =
      .ok (conditions.map fun c => .attribute (.ofName c.1) (.displays c.2)) := by
    rw [List.mapM_map]
    refine mapM_ok_of_forall fun c hc => ?_
    exact (attributeCondition_spellCondition (hnames c hc) c.2).trans (if_pos (hsizes c hc))
  rw [filterOf, hatoms, hmatching, hliteral]
  rfl

theorem filterOf_spellCondition_signs :
    filterOf none ["slot=a.b\n=*"] [] =
        .ok ⟨[.attribute (.ofName "slot") (.displays "a.b\n=*")]⟩ ∧
      ∀ v : Value, (ValueTest.displays "a.b\n=*").holds v = true ↔ v.display = "a.b\n=*" := by
  have hname : IsConditionName "slot" := ⟨by decide, by decide⟩
  have hatoms : (none : Option String).toList.mapM parseAtom = .ok [] := rfl
  have hmatching : ([] : List String).mapM (attributeCondition id) = .ok [] := rfl
  have hspelled : [("slot", "a.b\n=*")].map spellCondition = ["slot=a.b\n=*"] := by decide
  obtain ⟨hfilter, hholds⟩ := filterOf_spellCondition [("slot", "a.b\n=*")] (by simpa using hname)
    (by decide) hatoms hmatching
  rw [hspelled] at hfilter
  exact ⟨hfilter, hholds ("slot", "a.b\n=*") (List.mem_singleton_self _)⟩

end PackageAlgebra.CommandLine
