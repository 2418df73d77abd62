import PackageAlgebra.Proofs.Pattern.Match
import PackageAlgebra.Proofs.Pattern.Parser

/-!
# Texts between anchors

A text that is a pattern by itself is read as the same pattern between the
anchors, where it stands in a group. There are two ways out of the group: a
comment at the end of the text takes in the bracket that would close it, and a
bracket that closes nothing in the text closes it too early.
-/

namespace PackageAlgebra.Pattern

variable {r r' : Reader} {cs : List Char} {taken : Nat}

namespace Reader

-- ---------------------------------------------------------------------------
-- Reading to the end
-- ---------------------------------------------------------------------------

theorem run_fuel {fuel fuel' : Nat} (h : cs.length < fuel) (h' : cs.length < fuel') :
    run fuel r cs = run fuel' r cs := by
  induction fuel generalizing fuel' r cs with
  | zero => cases h
  | succ fuel ih =>
    cases fuel' with
    | zero => cases h'
    | succ fuel' =>
      rw [run, run]
      have hnext := (r.flags.next_suffix cs).length_le
      cases hcs : r.flags.next cs with
      | nil => rfl
      | cons c ds =>
        rw [hcs] at hnext
        dsimp only
        cases hstep : r.step (c :: ds) with
        | none => rfl
        | some p =>
          have hrest := (suffix_of_step hstep).length_le
          simp only [List.length_cons] at hnext
          exact ih (by omega) (by omega)

def readAll (r : Reader) (cs : List Char) : Option Reader :=
  run (cs.length + 1) r cs

theorem readAll_of_next_eq_nil (h : r.flags.next cs = []) : r.readAll cs = some r := by
  rw [readAll, run, h]

theorem readAll_of_next_eq_cons {c : Char} {ds : List Char} (h : r.flags.next cs = c :: ds) :
    r.readAll cs = (r.step (c :: ds)).bind fun p => p.1.readAll p.2 := by
  rw [readAll, run, h]
  dsimp only
  cases hstep : r.step (c :: ds) with
  | none => rfl
  | some p =>
    have hnext := (r.flags.next_suffix cs).length_le
    rw [h] at hnext
    have hrest := (suffix_of_step hstep).length_le
    simp only [List.length_cons] at hnext
    exact run_fuel (by omega) (by omega)

theorem readAll_of_step {c : Char} {ds rest : List Char} (hnext : r.flags.next cs = c :: ds)
    (hstep : r.step (c :: ds) = some (r', rest)) : r.readAll cs = r'.readAll rest := by
  rw [readAll_of_next_eq_cons hnext, hstep]
  rfl

/-- The reader comes to a closing bracket where no group is open. -/
inductive ClosesUnopened : Reader → List Char → Prop
  | here {r : Reader} {cs behind : List Char} (hnext : r.flags.next cs = ')' :: behind)
      (hgroups : r.groups = []) : ClosesUnopened r cs
  | later {r r' : Reader} {cs rest : List Char} (hstep : r.step (r.flags.next cs) = some (r', rest))
      (hrest : ClosesUnopened r' rest) : ClosesUnopened r cs

theorem ClosesUnopened.readAll_eq_none (h : ClosesUnopened r cs) : r.readAll cs = none := by
  induction h with
  | here hnext hgroups =>
    rw [readAll_of_next_eq_cons hnext, step_close, closeGroup, hgroups]
    rfl
  | @later r r' cs rest hstep hrest ih =>
    cases hnext : r.flags.next cs with
    | nil =>
      rw [hnext] at hstep
      cases hstep
    | cons c ds =>
      rw [hnext] at hstep
      rw [readAll_of_step hnext hstep, ih]

-- ---------------------------------------------------------------------------
-- Reading inside a group
-- ---------------------------------------------------------------------------

variable {outermost : OpenGroup}

/-- What becomes of a text in one more group, when a tail stands behind it: the reader comes to the
tail, or the tail is part of a comment, or the text closes the group, or the text is refused and
then the group stays open. -/
inductive Outcome (outermost : OpenGroup) (r : Reader) (cs : List Char) : Prop
  | reaches (r' : Reader) (h : ∀ t, IsTail t → r.readAll (cs ++ t) = r'.readAll t)
      (hunder : ∀ t, IsTail t →
        (r.under outermost).readAll (cs ++ t) = (r'.under outermost).readAll t)
  | comment (r' : Reader) (h : ∀ t, IsTail t → r.readAll (cs ++ t) = some r')
      (hunder : ∀ t, IsTail t → (r.under outermost).readAll (cs ++ t) = some (r'.under outermost))
  | closes (h : ClosesUnopened r cs)
  | refused (h : r.readAll cs = none)
      (hunder : ∀ r', (r.under outermost).readAll (cs ++ [')', '$']) = some r' → r'.groups ≠ [])

theorem exists_step_of_readAll_under {c : Char} {ds : List Char}
    (hnext : r.flags.next cs = c :: ds) (hopen : c = ')' → r.groups ≠ [])
    (h : (r.under outermost).readAll cs = some r') :
    ∃ r₁ rest, r.step (c :: ds) = some (r₁, rest) ∧
      (r₁.under outermost).readAll rest = some r' := by
  rw [readAll_of_next_eq_cons (r := r.under outermost) hnext, step_under hopen] at h
  obtain ⟨⟨r₁', rest'⟩, hstep, hrest⟩ := Option.bind_eq_some_iff.mp h
  obtain ⟨⟨r₁, rest⟩, hr₁, heq⟩ := Option.map_eq_some_iff.mp hstep
  cases heq
  exact ⟨r₁, rest, hr₁, hrest⟩

theorem groups_ne_nil_of_readAll {cs : List Char} (r : Reader)
    (h : (r.under outermost).readAll cs = some r') (hcs : ')' ∉ cs) : r'.groups ≠ [] := by
  induction hlen : cs.length using Nat.strongRecOn generalizing r cs with
  | ind n ih =>
    have hsuffix := r.flags.next_suffix cs
    cases hnext : r.flags.next cs with
    | nil =>
      rw [readAll_of_next_eq_nil (r := r.under outermost) hnext] at h
      cases h
      simp [under]
    | cons c ds =>
      rw [hnext] at hsuffix
      have hc : c ≠ ')' := by
        rintro rfl
        exact hcs (hsuffix.subset List.mem_cons_self)
      obtain ⟨r₁, rest, hr, hrest⟩ :=
        exists_step_of_readAll_under hnext (fun heq => absurd heq hc) h
      have hbehind : rest <:+ cs :=
        (suffix_of_step hr).trans ((List.suffix_cons c ds).trans hsuffix)
      have hshorter : rest.length < cs.length :=
        Nat.lt_of_le_of_lt (suffix_of_step hr).length_le hsuffix.length_le
      exact ih _ (hlen ▸ hshorter) r₁ hrest (fun hmem => hcs (hbehind.subset hmem)) rfl

theorem readAll_nil (r : Reader) : r.readAll [] = some r :=
  readAll_of_next_eq_nil (r.flags.next_tail .none)

theorem outcome_of_next_eq_nil (hnext : ∀ t, IsTail t → r.flags.next (cs ++ t) = t) :
    Outcome outermost r cs := by
  have hread (r₁ : Reader) (hflags : r₁.flags = r.flags) (t : List Char) (ht : IsTail t) :
      r₁.readAll (cs ++ t) = r₁.readAll t := by
    have hcs : r₁.flags.next (cs ++ t) = t := hflags ▸ hnext t ht
    have htail : r₁.flags.next t = t := r₁.flags.next_tail ht
    cases t with
    | nil => rw [readAll_of_next_eq_nil hcs, readAll_nil]
    | cons c ds => rw [readAll_of_next_eq_cons hcs, readAll_of_next_eq_cons htail]
  exact .reaches r (hread r rfl) (hread (r.under outermost) rfl)

section

variable {c : Char} {ds : List Char}
  (hnext : ∀ t, IsTail t → r.flags.next (cs ++ t) = c :: (ds ++ t))

include hnext

theorem next_of_tails : r.flags.next cs = c :: ds := by
  simpa using hnext [] .none

theorem outcome_of_beyond (hopen : c = ')' → r.groups ≠ []) (hnone : r.step (c :: ds) = none)
    (h : ∀ t, IsTail t → ∀ r' rest, r.step (c :: (ds ++ t)) = some (r', rest) →
      rest.length + 1 ≤ t.length) : Outcome outermost r cs := by
  refine .refused ?_ fun r' hr' => ?_
  · rw [readAll_of_next_eq_cons (next_of_tails hnext), hnone]
    rfl
  · obtain ⟨r₁, rest, hr₁, hrest⟩ := exists_step_of_readAll_under (hnext _ .whole) hopen hr'
    have hlength : rest.length ≤ 1 := Nat.le_of_succ_le_succ (h _ .whole r₁ rest hr₁)
    have hdollar : rest <:+ ['$'] :=
      List.suffix_of_suffix_length_le (suffix_of_step hr₁) ⟨ds ++ [')'], by simp⟩ hlength
    refine groups_ne_nil_of_readAll r₁ hrest fun hmem => ?_
    have hbracket := hdollar.subset hmem
    revert hbracket
    decide

theorem outcome_of_cutOff {more : List Char} (hescape : c :: ds = '\\' :: 'b' :: more)
    (hopens : OpensAtEnd r.flags more) : Outcome outermost r cs := by
  cases hescape
  obtain ⟨braces, rfl, hnil, hbraces⟩ := hopens
  have hstep (cs : List Char) : r.step ('\\' :: 'b' :: cs) =
      (readBoundary r.flags cs).bind fun p =>
        yield ((p.1.pattern? r.flags).map fun q => r.pushPart q 0) p.2 :=
    step_of_not_operator (by decide) _
  refine .refused ?_ fun r' hr' => ?_
  · rw [readAll_of_next_eq_cons (next_of_tails hnext), hstep, readBoundary_of_next_eq_nil hnil]
    rfl
  · have hboundary : readBoundary r.flags ('\x7b' :: (braces ++ [')', '$'])) =
        some (.assertion .wordBoundary, '\x7b' :: (braces ++ [')', '$'])) := by
      rw [readBoundary_of_next_eq_cons (hbraces _ .whole), if_neg (by decide)]
    have hcounts : readCounts r.flags (braces ++ [')', '$']) = none :=
      readCounts_tail .whole (hbraces _ .whole)
    have hrefused (p : Pattern) :
        ((r.pushPart p 0).under outermost).readAll ('\x7b' :: (braces ++ [')', '$'])) = none := by
      rw [readAll_of_next_eq_cons (Flags.next_brace _ _), step_counts, Take.andThen]
      change ((readCounts r.flags _).bind _).bind _ = none
      rw [hcounts]
      rfl
    have hpushed : r.step ('\\' :: 'b' :: '\x7b' :: (braces ++ [')', '$'])) =
        some (r.pushPart (.assertion (.wordBoundary r.flags.ascii)) 0,
          '\x7b' :: (braces ++ [')', '$'])) := by
      rw [hstep, hboundary]
      rfl
    obtain ⟨r₁, rest, hr₁, hrest⟩ :=
      exists_step_of_readAll_under (hnext _ .whole) (fun heq => absurd heq (by decide)) hr'
    cases hpushed.symm.trans hr₁
    rw [hrefused] at hrest
    cases hrest

theorem outcome_of_step {r₁ : Reader} {rest : List Char}
    (hstep : ∀ t, IsTail t → r.step (c :: (ds ++ t)) = some (r₁, rest ++ t))
    (hopen : c = ')' → r.groups ≠ []) (h : Outcome outermost r₁ rest) : Outcome outermost r cs := by
  have hread (t : List Char) (ht : IsTail t) : r.readAll (cs ++ t) = r₁.readAll (rest ++ t) :=
    readAll_of_step (hnext t ht) (hstep t ht)
  have hread' (t : List Char) (ht : IsTail t) :
      (r.under outermost).readAll (cs ++ t) = (r₁.under outermost).readAll (rest ++ t) := by
    refine readAll_of_step (r := r.under outermost) (hnext t ht) ?_
    rw [step_under hopen, hstep t ht]
    rfl
  have hfirst := hstep [] .none
  have halone := hread [] .none
  simp only [List.append_nil] at hfirst halone
  cases h with
  | reaches r' h hu =>
    exact .reaches r' (fun t ht => (hread t ht).trans (h t ht))
      fun t ht => (hread' t ht).trans (hu t ht)
  | comment r' h hu =>
    exact .comment r' (fun t ht => (hread t ht).trans (h t ht))
      fun t ht => (hread' t ht).trans (hu t ht)
  | closes h => exact .closes (.later (by rw [next_of_tails hnext, hfirst]) h)
  | refused h hu =>
    exact .refused (halone.trans h) fun r' hr' => hu r' (by rw [← hread' _ .whole, hr'])

theorem outcome_of_comment {r₁ : Reader}
    (hstep : ∀ t, IsTail t → r.step (c :: (ds ++ t)) = some (r₁, []))
    (hopen : c = ')' → r.groups ≠ []) : Outcome outermost r cs := by
  refine .comment r₁ (fun t ht => ?_) fun t ht => ?_
  · rw [readAll_of_step (hnext t ht) (hstep t ht), readAll_nil]
  · have hunder : (r.under outermost).step (c :: (ds ++ t)) = some (r₁.under outermost, []) := by
      rw [step_under hopen, hstep t ht]
      rfl
    rw [readAll_of_step (r := r.under outermost) (hnext t ht) hunder, readAll_nil]

end

/-- Every text has one of the outcomes, by what becomes of its steps one after the other. -/
theorem outcome (outermost : OpenGroup) (r : Reader) (cs : List Char) : Outcome outermost r cs := by
  induction hlen : cs.length using Nat.strongRecOn generalizing r cs with
  | ind n ih =>
    rcases r.flags.next_append cs with hnext | hnext
    · cases hcs : r.flags.next cs with
      | nil => exact outcome_of_next_eq_nil fun t ht => by rw [hnext t ht, hcs, List.nil_append]
      | cons c ds =>
        have htail (t : List Char) (ht : IsTail t) : r.flags.next (cs ++ t) = c :: (ds ++ t) := by
          rw [hnext t ht, hcs, List.cons_append]
        have hds : ds.length < cs.length := by
          have := (r.flags.next_suffix cs).length_le
          rwa [hcs] at this
        -- from here on no step closes the group around the text
        by_cases hunopened : c = ')' ∧ r.groups = []
        · exact .closes (.here (by rw [hcs, hunopened.1]) hunopened.2)
        have hopen (hc : c = ')') : r.groups ≠ [] := fun hgroups => hunopened ⟨hc, hgroups⟩
        rcases local_step c ds with hlocal | ⟨more, hescape, hopens⟩
        · cases hlocal with
          | within r₁ rest h =>
            have hrest := (suffix_of_step (h [] .none)).length_le
            simp only [List.append_nil] at hrest
            exact outcome_of_step htail h hopen (ih _ (by omega) r₁ rest rfl)
          | comment r₁ h => exact outcome_of_comment htail h hopen
          | beyond hnone h => exact outcome_of_beyond htail hopen hnone h
        · exact outcome_of_cutOff htail hescape hopens
    · -- the text ends in a comment between two steps
      exact .comment r (fun t ht => readAll_of_next_eq_nil (hnext t ht))
        fun t ht => readAll_of_next_eq_nil (hnext t ht)

end Reader

-- ---------------------------------------------------------------------------
-- Between the anchors
-- ---------------------------------------------------------------------------

/-- The pattern that a text is, with the depth of its tree, however deep and big it is. -/
def readPattern? (cs : List Char) : Option (Pattern × Nat) :=
  (Reader.initial.readAll cs).bind fun r =>
    if r.groups.isEmpty then r.level.close.pattern.map (·, r.level.close.height) else none

theorem readPattern?_eq_some_iff {p : Pattern} {height : Nat} :
    readPattern? cs = some (p, height) ↔
      ∃ r, Reader.initial.readAll cs = some r ∧ r.groups = [] ∧
        r.level.close = ⟨some p, height⟩ := by
  rw [readPattern?, Option.bind_eq_some_iff]
  refine exists_congr fun r => and_congr_right fun _ => ?_
  cases hgroups : r.groups <;> simp [Level.close]

theorem parse?_eq (cs : List Char) :
    parse? cs = (readPattern? cs).bind fun p =>
      if p.2 ≤ maxTreeHeight && p.1.isSmall then some p.1 else none := by
  rw [parse?, readPattern?, Reader.readAll]
  cases Reader.run (cs.length + 1) .initial cs with
  | none => rfl
  | some r => cases hgroups : r.groups <;> simp [hgroups, Level.close]

def anchorGroup : OpenGroup :=
  ⟨⟨[⟨some (.assertion .textStart), 0⟩], []⟩, .initial, false⟩

theorem readAll_anchored (cs : List Char) :
    Reader.initial.readAll (anchored cs) =
      (Reader.initial.under anchorGroup).readAll (cs ++ [')', '$']) := by
  have hanchored : anchored cs = '^' :: '(' :: '?' :: ':' :: (cs ++ [')', '$']) := by
    simp [anchored]
  have hstart (ds : List Char) :
      Reader.initial.step ('^' :: ds) = some (⟨.initial, anchorGroup.outer, [], []⟩, ds) :=
    rfl
  have hopen (ds : List Char) :
      Reader.step ⟨.initial, anchorGroup.outer, [], []⟩ ('(' :: '?' :: ':' :: ds) =
        some (Reader.initial.under anchorGroup, ds) :=
    rfl
  rw [hanchored, Reader.readAll_of_step rfl (hstart _), Reader.readAll_of_step rfl (hopen _)]

def anchorLevel (p : Pattern) (height : Nat) : Level :=
  ⟨[⟨some (.assertion .textEnd), 0⟩, ⟨some p, height + 1⟩, ⟨some (.assertion .textStart), 0⟩], []⟩

theorem readAll_tail {p : Pattern} {height : Nat} (hgroups : r.groups = [])
    (hclose : r.level.close = ⟨some p, height⟩) :
    (r.under anchorGroup).readAll [')', '$'] =
      some ⟨.initial, anchorLevel p height, [], r.names⟩ := by
  obtain ⟨flags, level, groups, names⟩ := r
  cases hgroups
  let closed := anchorGroup.outer.push (some p) (height + 1)
  have hbracket : (Reader.under anchorGroup ⟨flags, level, [], names⟩).step [')', '$'] =
      some (⟨.initial, closed, [], names⟩, ['$']) := by
    change yield (some (Reader.mk .initial
      (anchorGroup.outer.push level.close.pattern (level.close.height + 1)) [] names)) ['$'] = _
    rw [hclose]
    rfl
  have hend : Reader.step ⟨.initial, closed, [], names⟩ ['$'] =
      some (⟨.initial, anchorLevel p height, [], names⟩, []) :=
    rfl
  rw [Reader.readAll_of_step (flags.next_tail .whole) hbracket, Reader.readAll_of_step rfl hend,
    Reader.readAll_nil]

/-- A group of the text is closed in place of the one around it. -/
theorem groups_ne_nil_of_readAll_tail (hgroups : r.groups ≠ [])
    (h : (r.under anchorGroup).readAll [')', '$'] = some r') : r'.groups ≠ [] := by
  obtain ⟨r₁, rest, hr₁, hrest⟩ :=
    Reader.exists_step_of_readAll_under (r.flags.next_tail .whole) (fun _ => hgroups) h
  refine Reader.groups_ne_nil_of_readAll r₁ hrest fun hmem => ?_
  have hsuffix := (Reader.suffix_of_step hr₁).subset hmem
  revert hsuffix
  decide

theorem joinLiterals_ne_nil {ps : List Pattern} (h : ps ≠ []) : joinLiterals ps ≠ [] := by
  rw [joinLiterals.eq_def]
  split
  · exact absurd rfl h
  · split <;> simp
  · simp

theorem betweenEnds_eq_seq (p : Pattern) : ∃ q, betweenEnds p = .seq (.assertion .textStart) q := by
  have hjoined : joinLiterals (p.items ++ [.assertion .textEnd]) ≠ [] :=
    joinLiterals_ne_nil (by simp)
  obtain ⟨q, qs, hq⟩ := List.exists_cons_of_ne_nil hjoined
  refine ⟨inSequence (q :: qs), ?_⟩
  have hitems : [Pattern.assertion .textStart, p, .assertion .textEnd].flatMap items =
      .assertion .textStart :: (p.items ++ [.assertion .textEnd]) := by
    simp [items]
  rw [betweenEnds, sequence, hitems, joinLiterals, hq]
  · rfl
  · simp

theorem alternation_seq (p q : Pattern) : alternation [.seq p q] = .seq p q := by
  rw [alternation, List.foldl_cons, List.foldl_nil, Nat.add_comm]
  rfl

theorem close_anchorLevel (p : Pattern) (height : Nat) :
    (anchorLevel p height).close = ⟨some (betweenEnds p), height + 2⟩ := by
  obtain ⟨q, hq⟩ := betweenEnds_eq_seq p
  have hsequence : (anchorLevel p height).sequence = ⟨some (betweenEnds p), height + 2⟩ := by
    simp [Level.sequence, anchorLevel, heightOver, maxHeight, betweenEnds]
  rw [Level.close, hsequence, hq]
  simp [anchorLevel, heightOver, maxHeight, alternation_seq]

/-- Whether a closing bracket behind the text is left out with the comment at its end. -/
def EndsInComment (cs : List Char) : Prop :=
  (readPattern? cs).isSome = true ∧ (readPattern? (cs ++ [')'])).isSome = true

theorem readPattern?_of_groups_ne_nil (h : Reader.initial.readAll cs = some r)
    (hgroups : r.groups ≠ []) : readPattern? cs = none := by
  rw [readPattern?, h, Option.bind_some, if_neg]
  rwa [List.isEmpty_iff]

theorem readPattern?_of_readAll_eq_none (h : Reader.initial.readAll cs = none) :
    readPattern? cs = none := by
  rw [readPattern?, h]
  rfl

theorem readPattern?_anchored_of_open (h : ∀ r,
    (Reader.initial.under anchorGroup).readAll (cs ++ [')', '$']) = some r → r.groups ≠ []) :
    readPattern? (anchored cs) = none := by
  cases hread : Reader.initial.readAll (anchored cs) with
  | none => exact readPattern?_of_readAll_eq_none hread
  | some r =>
    rw [readAll_anchored] at hread
    exact readPattern?_of_groups_ne_nil (by rw [readAll_anchored, hread]) (h r hread)

theorem readAll_of_readPattern? {p : Pattern} {height : Nat}
    (h : readPattern? cs = some (p, height)) :
    ∃ r : Reader, r.groups = [] ∧ r.level.close = ⟨some p, height⟩ ∧
      (readPattern? (cs ++ [')']) = none ∧
          (Reader.initial.under anchorGroup).readAll (cs ++ [')', '$']) =
            (r.under anchorGroup).readAll [')', '$'] ∨
        readPattern? (cs ++ [')']) = some (p, height) ∧
          (Reader.initial.under anchorGroup).readAll (cs ++ [')', '$']) =
            some (r.under anchorGroup)) := by
  obtain ⟨r, hread, hgroups, hclose⟩ := readPattern?_eq_some_iff.mp h
  refine ⟨r, hgroups, hclose, ?_⟩
  rcases Reader.outcome anchorGroup .initial cs with
    ⟨r', h, hu⟩ | ⟨r', h, hu⟩ | h | ⟨h, hu⟩
  · have halone := h [] .none
    rw [List.append_nil, hread, Reader.readAll_nil] at halone
    cases halone
    refine .inl ⟨readPattern?_of_readAll_eq_none ?_, hu _ .whole⟩
    rw [h _ .bracket, Reader.readAll_of_next_eq_cons (r.flags.next_tail .bracket),
      Reader.step_close, Reader.closeGroup, hgroups]
    rfl
  · have halone := h [] .none
    rw [List.append_nil, hread] at halone
    cases halone
    exact .inr ⟨readPattern?_eq_some_iff.mpr ⟨r, h _ .bracket, hgroups, hclose⟩, hu _ .whole⟩
  · rw [h.readAll_eq_none] at hread
    cases hread
  · rw [h] at hread
    cases hread

theorem readPattern?_anchored {p : Pattern} {height : Nat} (h : readPattern? cs = some (p, height))
    (hcomment : ¬EndsInComment cs) :
    readPattern? (anchored cs) = some (betweenEnds p, height + 2) := by
  obtain ⟨r, hgroups, hclose, ⟨-, hread⟩ | ⟨hbracket, -⟩⟩ := readAll_of_readPattern? h
  · rw [readAll_tail hgroups hclose, ← readAll_anchored] at hread
    exact readPattern?_eq_some_iff.mpr ⟨_, hread, rfl, close_anchorLevel p height⟩
  · exact absurd ⟨by rw [h]; rfl, by rw [hbracket]; rfl⟩ hcomment

theorem readPattern?_anchored_of_comment (h : EndsInComment cs) :
    readPattern? (anchored cs) = none := by
  obtain ⟨⟨p, height⟩, hp⟩ := Option.isSome_iff_exists.mp h.1
  obtain ⟨r, hgroups, hclose, ⟨hbracket, -⟩ | ⟨-, hread⟩⟩ := readAll_of_readPattern? hp
  · have hsome := h.2
    rw [hbracket] at hsome
    cases hsome
  · refine readPattern?_anchored_of_open fun r' hr' => ?_
    rw [hread] at hr'
    cases hr'
    simp [Reader.under]

theorem readPattern?_anchored_of_none (h : readPattern? cs = none)
    (hclose : ¬Reader.ClosesUnopened .initial cs) : readPattern? (anchored cs) = none := by
  refine readPattern?_anchored_of_open fun r hr => ?_
  rcases Reader.outcome anchorGroup .initial cs with
    ⟨r', h', hu⟩ | ⟨r', h', hu⟩ | h' | ⟨h', hu⟩
  · rw [hu _ .whole] at hr
    refine groups_ne_nil_of_readAll_tail (fun hgroups => ?_) hr
    have hread := h' [] .none
    rw [List.append_nil, Reader.readAll_nil] at hread
    have hpattern := readPattern?_eq_some_iff.mpr ⟨r', hread, hgroups, rfl⟩
    rw [h] at hpattern
    cases hpattern
  · rw [hu _ .whole] at hr
    cases hr
    simp [Reader.under]
  · exact absurd h' hclose
  · exact hu r hr

end PackageAlgebra.Pattern
