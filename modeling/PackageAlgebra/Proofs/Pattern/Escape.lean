import PackageAlgebra.Proofs.Pattern.Anchored

/-!
# Escaped texts

A text with its meta characters escaped is a pattern that matches it and nothing
else, with a state for each of its bytes, so only a very long text is too big.
-/

namespace PackageAlgebra.Pattern

variable {r : Reader}

-- ---------------------------------------------------------------------------
-- Reading
-- ---------------------------------------------------------------------------

theorem pattern?_literal (c : Char) :
    (Primitive.literal c false).pattern? .initial = some (.literal [c]) :=
  congrArg some (ofClass_single c)

def spelled (c : Char) : List Char :=
  if isMeta c then ['\\', c] else [c]

theorem escape_cons (c : Char) (cs : List Char) : escape (c :: cs) = spelled c ++ escape cs :=
  rfl

theorem readPrimitive_of_not_isMeta {c : Char} (h : ¬isMeta c = true) (flags : Flags)
    (cs : List Char) : readPrimitive flags (c :: cs) = some (.literal c false, cs) := by
  rw [readPrimitive]
  all_goals
    rintro rfl
    exact h (by decide)

def textItems (cs : List Char) : List Item :=
  cs.map fun c => ⟨some (.literal [c]), 0⟩

namespace Reader

theorem readPart_literal {c : Char} {cs rest : List Char} (hflags : r.flags = .initial)
    (h : readPrimitive r.flags cs = some (.literal c false, rest)) :
    r.readPart cs = some (r.pushPart (.literal [c]) 0, rest) := by
  rw [readPart, Take.andThen, h, Option.bind_some, hflags, pattern?_literal]
  rfl

theorem readAll_spelled (hflags : r.flags = .initial) (c : Char) (cs : List Char) :
    r.readAll (spelled c ++ cs) = (r.pushPart (.literal [c]) 0).readAll cs := by
  have hnext (cs : List Char) : r.flags.next cs = cs := by
    rw [hflags]
    rfl
  rw [spelled]
  by_cases hmeta : isMeta c = true
  · rw [if_pos hmeta]
    have hescape : readPrimitive r.flags ('\\' :: c :: cs) = some (.literal c false, cs) := by
      rw [readPrimitive_escape, readEscape.eq_def]
      exact if_pos (by rw [isPlainEscape, hmeta, Bool.true_or])
    exact readAll_of_step (hnext ('\\' :: c :: cs))
      ((step_of_not_operator (by decide) _).trans (readPart_literal hflags hescape))
  · rw [if_neg hmeta]
    have hoperator : c ∉ operators := by
      intro hmem
      have hall : operators.all isMeta = true := by decide
      exact hmeta (List.all_eq_true.mp hall c hmem)
    have hplain := readPrimitive_of_not_isMeta hmeta r.flags cs
    exact readAll_of_step (hnext (c :: cs))
      ((step_of_not_operator hoperator _).trans (readPart_literal hflags hplain))

def pushText (r : Reader) : List Char → Reader
  | [] => r
  | c :: cs => (r.pushPart (.literal [c]) 0).pushText cs

theorem readAll_escape (hflags : r.flags = .initial) (cs t : List Char) :
    r.readAll (escape cs ++ t) = (r.pushText cs).readAll t := by
  induction cs generalizing r with
  | nil => rfl
  | cons c cs ih =>
    rw [escape_cons, List.append_assoc, readAll_spelled hflags,
      ih (r := r.pushPart (.literal [c]) 0) hflags, pushText]

theorem pushText_eq (cs : List Char) :
    r.pushText cs =
      { r with level := ⟨(textItems cs).reverse ++ r.level.items, r.level.branches⟩ } := by
  induction cs generalizing r with
  | nil => rfl
  | cons c cs ih =>
    rw [pushText, ih]
    simp [pushPart, Level.push, textItems]

end Reader

/-- The pattern that matches a text and nothing else. -/
def ofText : List Char → Pattern
  | [] => .empty
  | c :: cs => .literal (c :: cs)

theorem joinLiterals_cons (c : Char) (cs : List Char) :
    joinLiterals ((c :: cs).map fun c => .literal [c]) = [.literal (c :: cs)] := by
  induction cs generalizing c with
  | nil => rfl
  | cons d cs ih =>
    rw [List.map_cons, joinLiterals, ih d]
    rfl

theorem sequence_literals (cs : List Char) :
    sequence (cs.map fun c => .literal [c]) = ofText cs := by
  have hitems : (cs.map fun c => Pattern.literal [c]).flatMap items =
      cs.map fun c => .literal [c] := by
    rw [List.flatMap_map]
    exact List.map_eq_flatMap.symm
  rw [sequence, hitems]
  cases cs with
  | nil => rfl
  | cons c cs => rw [joinLiterals_cons]; rfl

theorem alternation_ofText (cs : List Char) : alternation [ofText cs] = ofText cs := by
  rw [alternation, List.foldl_cons, List.foldl_nil, Nat.add_comm]
  cases cs <;> rfl

theorem maxHeight_reverse_textItems (cs : List Char) : maxHeight (textItems cs).reverse = 0 := by
  have hzero (n : Nat) : (List.replicate n 0).foldl Nat.max 0 = 0 := by
    induction n with
    | zero => rfl
    | succ n ih => exact ih
  have hheights : (textItems cs).reverse.map (·.height) = List.replicate cs.length 0 := by
    rw [List.map_reverse, textItems, List.map_map]
    change (cs.map fun _ => 0).reverse = _
    rw [List.map_const', List.reverse_replicate]
  rw [maxHeight, hheights, hzero]

theorem heightOver_reverse_textItems (cs : List Char) : heightOver (textItems cs).reverse ≤ 1 := by
  rw [heightOver, maxHeight_reverse_textItems]
  split <;> decide

theorem readPattern?_escape (cs : List Char) :
    ∃ height ≤ 1, readPattern? (escape cs) = some (ofText cs, height) := by
  have hread := Reader.readAll_escape (r := .initial) rfl cs []
  rw [List.append_nil, Reader.readAll_nil, Reader.pushText_eq] at hread
  refine ⟨_, heightOver_reverse_textItems cs, readPattern?_eq_some_iff.mpr ⟨_, hread, rfl, ?_⟩⟩
  have hpatterns : (textItems cs).reverse.reverse.filterMap (·.pattern) =
      cs.map fun c => Pattern.literal [c] := by
    rw [List.reverse_reverse, textItems, List.filterMap_map]
    exact congrFun (List.filterMap_eq_map (f := fun c => Pattern.literal [c])) cs
  have hsequence : Level.sequence ⟨(textItems cs).reverse, []⟩ =
      ⟨some (ofText cs), heightOver (textItems cs).reverse⟩ := by
    rw [Level.sequence, hpatterns, sequence_literals]
  have hlevel : (textItems cs).reverse ++ Reader.initial.level.items = (textItems cs).reverse :=
    List.append_nil _
  rw [hlevel]
  change Level.close ⟨(textItems cs).reverse, []⟩ = _
  rw [Level.close, hsequence]
  simp [alternation_ofText, heightOver, maxHeight]

theorem not_endsInComment_escape (cs : List Char) : ¬EndsInComment (escape cs) := by
  rintro ⟨-, h⟩
  have hclose : Reader.initial.readAll (escape cs ++ [')']) = none := by
    rw [Reader.readAll_escape rfl, Reader.pushText_eq]
    rfl
  rw [readPattern?_of_readAll_eq_none hclose] at h
  cases h

theorem matches_ofText {cs text : List Char} :
    (ofText cs).Matches text.toArray 0 text.length ↔ text = cs := by
  cases cs with
  | nil => simp [ofText, Matches, eq_comm]
  | cons c cs =>
    simp only [ofText, Matches, List.getElem?_toArray, Nat.zero_add]
    constructor
    · rintro ⟨hlength, h⟩
      refine List.ext_getElem? fun k => ?_
      cases hk : (c :: cs)[k]? with
      | none =>
        have hle := List.getElem?_eq_none_iff.mp hk
        exact List.getElem?_eq_none (hlength ▸ hle)
      | some d => exact h k d hk
    · rintro rfl
      exact ⟨rfl, fun _ _ h => h⟩

-- ---------------------------------------------------------------------------
-- Sizes
-- ---------------------------------------------------------------------------

/-- The most bytes that a text may have for its pattern not to be too big. -/
def literalLimit : Nat := sizeLimit / 32 - 6

theorem automatonSize_betweenEnds_ofText (cs : List Char) :
    (betweenEnds (ofText cs)).automatonSize false =
        32 * ((cs.flatMap String.utf8EncodeChar).length + 6) ∧
      (betweenEnds (ofText cs)).automatonSize true =
        32 * ((cs.flatMap String.utf8EncodeChar).length + 4) := by
  cases cs with
  | nil => exact ⟨by rfl, by rfl⟩
  | cons c cs =>
    generalize hbytes : ((c :: cs).flatMap String.utf8EncodeChar).length = bytes
    have hends : betweenEnds (ofText (c :: cs)) =
        .seq (.assertion .textStart) (.seq (.literal (c :: cs)) (.assertion .textEnd)) :=
      rfl
    have hforward : (betweenEnds (ofText (c :: cs))).automatonSize false =
        32 * (0 + 1 + 1 + 1 + bytes + 1 + 1 + 1) := by
      rw [hends, ← hbytes]
      rfl
    have hbackward : (betweenEnds (ofText (c :: cs))).automatonSize true =
        32 * (0 + 1 + 1 + bytes + 1 + 1) := by
      rw [hends, ← hbytes]
      rfl
    rw [hforward, hbackward]
    omega

theorem isSmall_betweenEnds_ofText (cs : List Char) :
    (betweenEnds (ofText cs)).isSmall = true ↔
      (cs.flatMap String.utf8EncodeChar).length ≤ literalLimit := by
  obtain ⟨hforward, hbackward⟩ := automatonSize_betweenEnds_ofText cs
  rw [isSmall, hforward, hbackward, Bool.and_eq_true, decide_eq_true_eq, decide_eq_true_eq,
    sizeLimit, literalLimit, sizeLimit]
  omega

theorem parse?_anchored_escape (cs : List Char) :
    parse? (anchored (escape cs)) =
      if (cs.flatMap String.utf8EncodeChar).length ≤ literalLimit then
        some (betweenEnds (ofText cs))
      else none := by
  obtain ⟨height, hheight, hread⟩ := readPattern?_escape cs
  rw [parse?_eq, readPattern?_anchored hread (not_endsInComment_escape cs), Option.bind_some]
  have hdepth : height + 2 ≤ maxTreeHeight := by
    have : 1 + 2 ≤ maxTreeHeight := by decide
    omega
  simp [hdepth, isSmall_betweenEnds_ofText]

end PackageAlgebra.Pattern
