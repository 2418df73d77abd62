import PackageAlgebra.Pattern.Parser
import PackageAlgebra.Proofs.Pattern.Bracket

/-!
# Steps and the end of the text

A step of the reader takes the same off a text whether there is a tail behind it
or not, at a closing bracket if a group is open. Flag letters are the one thing
that a closing bracket behind the text completes.
-/

namespace PackageAlgebra.Pattern

variable {flags : Flags} {taken : Nat} {r r' : Reader}

-- ---------------------------------------------------------------------------
-- Flags and names of groups
-- ---------------------------------------------------------------------------

theorem leaves_readFlagLetters (seen : List FlagLetter) : Leaves (readFlagLetters seen) := by
  intro cs
  induction cs generalizing seen with
  | nil =>
    intro letters rest h
    cases h
  | cons c cs ih =>
    intro letters rest h
    rw [readFlagLetters] at h
    split at h
    · split at h
      · cases h
      · cases h
        exact List.suffix_rfl
    · split at h
      · split at h
        · cases h
        · exact (ih _ letters rest h).trans (List.suffix_cons c cs)
      · cases h

theorem steady_readFlagLetters (seen : List FlagLetter) : Steady 0 (readFlagLetters seen) := by
  refine ⟨leaves_readFlagLetters seen, fun cs => ?_⟩
  induction cs generalizing seen with
  | nil =>
    exact .beyond rfl fun t _ letters rest h =>
      (leaves_readFlagLetters seen t letters rest h).length_le
  | cons c cs ih =>
    by_cases hend : (c = ':' || c = ')') = true
    · refine .of_append fun t _ => ?_
      rw [List.cons_append, readFlagLetters, readFlagLetters, if_pos hend, if_pos hend]
      split <;> rfl
    · cases hletter : FlagLetter.ofChar? c with
      | none =>
        refine .of_append fun t _ => ?_
        simp only [List.cons_append, readFlagLetters, if_neg hend, hletter, Option.map_none]
      | some letter =>
        by_cases hseen : seen.contains letter = true
        · refine .of_append fun t _ => ?_
          simp only [List.cons_append, readFlagLetters, if_neg hend, hletter, if_pos hseen,
            Option.map_none]
        · refine (ih (letter :: seen)).congr fun t _ => ?_
          simp only [List.cons_append, readFlagLetters, if_neg hend, hletter, if_neg hseen]

namespace Reader

def readFlagsEnd (r : Reader) (letters : List FlagLetter) : Take Reader
  | [] => none
  | c :: cs =>
    if c = ')' then
      yield (if letters.isEmpty then none
        else some { r with flags := r.flags.apply true letters, level := r.level.push none 0 }) cs
    else some (r.openGroup (r.flags.apply true letters) false, cs)

theorem headed_readFlagsEnd (letters : List FlagLetter) : Headed (r.readFlagsEnd letters) := by
  refine ⟨rfl, fun c => ?_⟩
  by_cases hc : c = ')'
  · exact (Steady.yield _).congr fun _ => if_pos hc
  · exact (Steady.some _).congr fun _ => if_neg hc

def readFlags (r : Reader) : Take Reader :=
  Take.andThen (readFlagLetters []) r.readFlagsEnd

theorem steady_readFlags : Steady 1 r.readFlags :=
  (steady_readFlagLetters []).andThen_consumes (fun letters => (headed_readFlagsEnd letters).steady)
    fun letters => (headed_readFlagsEnd letters).consumes

def openedAs? (r : Reader) : List Char → Option Reader
  | [] => none
  | c :: name =>
    if isGroupNameChar true c && name.all (isGroupNameChar false) then
      if r.names.contains (c :: name) then none
      else some { r.openGroup r.flags true with names := (c :: name) :: r.names }
    else none

theorem openNamed_eq (cs : List Char) :
    r.openNamed cs =
      Take.andThen (Text.cutFirst? ['>']) (fun name => yield (r.openedAs? name)) cs := by
  rw [openNamed, readGroupName, Take.andThen]
  split
  next c name rest hcut =>
    rw [hcut]
    simp only [Option.bind_some, yield, openedAs?]
    by_cases hname : (isGroupNameChar true c && name.all (isGroupNameChar false)) = true
    · rw [if_pos hname, if_pos hname]
      simp only [bind, Option.bind_some]
      by_cases hseen : r.names.contains (c :: name) = true
      · rw [if_pos hseen, if_pos hseen]
        rfl
      · rw [if_neg hseen, if_neg hseen]
        rfl
    · rw [if_neg hname, if_neg hname]
      rfl
  next hcut =>
    cases hname : Text.cutFirst? ['>'] cs with
    | none => rfl
    | some p =>
      obtain ⟨_ | ⟨c, name⟩, rest⟩ := p
      · rfl
      · exact (hcut c name rest hname).elim

theorem exact_cutFirst? {m : Char} (h : m ≠ ')' ∧ m ≠ '$') : Exact (Text.cutFirst? [m]) := by
  intro cs t ht
  refine Text.cutFirst?_append_right ?_ cs
  cases ht <;> simp [h]

theorem leaves_cutFirst? (mark : List Char) : Leaves (Text.cutFirst? mark) :=
  fun _ front _ h => ⟨front ++ mark, (Text.join_of_cutFirst? h).symm⟩

theorem steady_openNamed : Steady taken r.openNamed :=
  ((Steady.of_exact (exact_cutFirst? (by decide)) (leaves_cutFirst? _)).andThen
    fun _ => .yield _).congr openNamed_eq

def readMarked (r : Reader) : Take Reader :=
  branchOn '=' (fun _ => none) (branchOn '!' (fun _ => none)
    (branchOn 'P' (branchOn '<' r.openNamed fun _ => none)
      (branchOn '<' (branchOn '=' (fun _ => none) (branchOn '!' (fun _ => none) r.openNamed))
        r.readFlags)))

theorem readGroup_eq (cs : List Char) :
    r.readGroup cs =
      branchOn '?' r.readMarked (fun ds => some (r.openGroup r.flags true, ds))
        (r.flags.next cs) := by
  rw [readGroup]
  generalize r.flags.next cs = ds
  split
  · rfl
  · rfl
  · rfl
  · rfl
  · rfl
  next ds hequal hexcl =>
    change r.openNamed ds = branchOn '=' _ (branchOn '!' _ r.openNamed) ds
    rw [branchOn_of_ne _ _ hequal, branchOn_of_ne _ _ hexcl]
  next ds hequal hexcl hbehind hnotBehind hnamed hplain =>
    rw [branchOn_cons, readMarked, branchOn_of_ne _ _ (by simpa using hequal),
      branchOn_of_ne _ _ (by simpa using hexcl)]
    refine Eq.trans (b := r.readFlags ds) ?_ ?_
    · rw [readFlags, Take.andThen]
      refine congrArg (Option.bind _) (funext fun p => ?_)
      obtain ⟨letters, _ | ⟨c, rest⟩⟩ := p
      · rfl
      · by_cases hc : c = ')'
        · subst hc
          cases letters <;> rfl
        · simp [readFlagsEnd, hc]
    · by_cases hletter : ∃ es, ds = 'P' :: es
      · obtain ⟨es, rfl⟩ := hletter
        rw [branchOn_cons, branchOn_of_ne _ _ fun cs heq => hnamed cs (by rw [heq])]
        rfl
      · rw [branchOn_of_ne _ _ fun es heq => hletter ⟨es, heq⟩, branchOn_of_ne _ _ hplain]
  next h => rw [branchOn_of_ne _ _ h]

theorem steady_readMarked : Steady 1 r.readMarked :=
  .branchOn (by decide) .none (.branchOn (by decide) .none
    (.branchOn (by decide) (.branchOn (by decide) steady_openNamed .none)
      (.branchOn (by decide)
        (.branchOn (by decide) .none (.branchOn (by decide) .none steady_openNamed))
        steady_readFlags)))

theorem steady_readGroup : Steady 1 r.readGroup :=
  ((Steady.branchOn (by decide) steady_readMarked (.some _)).next r.flags).congr readGroup_eq

end Reader

-- ---------------------------------------------------------------------------
-- Counts
-- ---------------------------------------------------------------------------

def skipSpace : Take Unit :=
  fun cs => some ((), cs.dropWhile Text.isBlank)

theorem steady_skipSpace : Steady taken skipSpace := by
  refine ⟨fun cs x rest h => ?_, fun cs => ?_⟩
  · cases h
    exact List.dropWhile_suffix _
  · refine .within () (cs.dropWhile Text.isBlank) fun t ht => ?_
    rw [skipSpace, dropWhile_append_tail cs ht]
    split
    next hempty => rw [hempty, List.nil_append]
    next => rfl

theorem takeDigits_eq (fuel : Nat) (cs : List Char) :
    some (takeDigits flags fuel cs) = takeRun flags Text.isDigit fuel cs := by
  induction fuel generalizing cs with
  | zero => rfl
  | succ fuel ih =>
    cases cs with
    | nil => rfl
    | cons c cs =>
      rw [takeDigits, takeRun, ← ih]
      split <;> rfl

def countOf? (digits : List Char) : Option (Option Nat) :=
  if digits.isEmpty then some none
  else if Text.numberOf digits < UInt32.size then some (some (Text.numberOf digits)) else none

theorem readCount_eq (cs : List Char) :
    readCount flags cs =
      Take.andThen skipSpace (fun _ => Take.andThen
        (fun ds => takeRun flags Text.isDigit ds.length ds) fun digits =>
          Take.andThen skipSpace fun _ => Take.andThen flags.skip fun _ =>
            yield (countOf? digits)) cs := by
  simp only [readCount, Take.andThen, skipSpace, ← takeDigits_eq, Flags.skip, Option.bind_some,
    yield, countOf?]
  split
  · rfl
  · split <;> rfl

theorem steady_readCount : Steady taken (readCount flags) :=
  (steady_skipSpace.andThen fun _ =>
    (steady_takeAllRun (by decide)).andThen fun _ =>
        steady_skipSpace.andThen fun _ => flags.steady_skip.andThen fun _ => .yield _).congr
    readCount_eq

def readMaxCount (flags : Flags) (min : Option Nat) : Take (Nat × Option Nat) :=
  branchOn '\x7d' (yield (min.map (·, none)))
    (Take.andThen (readCount flags) fun max =>
      branchOn '\x7d'
        (yield (min.bind fun min => max.bind fun max =>
          if min ≤ max then some (min, some max) else none))
        fun _ => none)

theorem readCounts_eq (cs : List Char) :
    readCounts flags cs =
      Take.andThen (readCount flags)
        (fun min => branchOn ',' (fun ds => readMaxCount flags min (flags.next ds))
          (branchOn '\x7d' (yield (min.map fun min => (min, some min))) fun _ => none))
        (flags.next cs) := by
  refine congrArg (Option.bind _) (funext fun p => ?_)
  obtain ⟨min, rest⟩ := p
  dsimp only
  split
  next ds =>
    rw [branchOn_cons]
    split
    next es hnext =>
      rw [hnext, readMaxCount, branchOn_cons]
      cases min <;> rfl
    next hbrace =>
      rw [readMaxCount, branchOn_of_ne _ _ hbrace]
      refine congrArg (Option.bind _) (funext fun q => ?_)
      obtain ⟨max, rest⟩ := q
      dsimp only
      split
      next =>
        rw [branchOn_cons]
        cases min with
        | none => rfl
        | some min =>
          cases max with
          | none => rfl
          | some max => simp only [bind, Option.bind_some, yield]; split <;> rfl
      next hclose => rw [branchOn_of_ne _ _ hclose]
  next ds =>
    rw [branchOn_of_ne _ _ (by simp), branchOn_cons]
    cases min <;> rfl
  next hcomma hclose => rw [branchOn_of_ne _ _ hcomma, branchOn_of_ne _ _ hclose]

theorem steady_readMaxCount (min : Option Nat) : Steady taken (readMaxCount flags min) :=
  .branchOn (by decide) (.yield _)
    (steady_readCount.andThen fun _ => .branchOn (by decide) (.yield _) .none)

theorem steady_readCounts : Steady taken (readCounts flags) :=
  ((steady_readCount.andThen fun min =>
    .branchOn (by decide) ((steady_readMaxCount min).next flags)
      (.branchOn (by decide) (.yield _) .none)).next flags).congr readCounts_eq

theorem readCount_tail {t : List Char} (ht : IsTail t) : readCount flags t = some (none, t) := by
  have hdigits : Take.andThen skipSpace (fun _ =>
      Take.andThen (fun ds => takeRun flags Text.isDigit ds.length ds) fun digits =>
        Take.andThen skipSpace fun _ => Take.andThen flags.skip fun _ =>
          yield (countOf? digits)) t = some (none, flags.next t) := by
    cases ht <;> rfl
  rw [readCount_eq, hdigits, flags.next_tail ht]

/-- Braces that the end of the text cuts off are no repetition. -/
theorem readCounts_tail {cs t : List Char} (ht : IsTail t) (h : flags.next cs = t) :
    readCounts flags cs = none := by
  rw [readCounts_eq, h, Take.andThen, readCount_tail ht]
  cases ht <;> rfl

-- ---------------------------------------------------------------------------
-- Steps
-- ---------------------------------------------------------------------------

namespace Reader

def repeated? (r : Reader) (min : Nat) (max : Option Nat) : Option Reader :=
  (r.level.repeatLast min max).map fun level => { r with level }

theorem readRepetition_eq (min : Nat) (max : Option Nat) (cs : List Char) :
    r.readRepetition min max cs =
      branchOn '?' (yield (r.repeated? min max)) (yield (r.repeated? min max)) cs := by
  have hrepeated (ds : List Char) :
      (r.level.repeatLast min max).map (fun level => ({ r with level }, ds)) =
        yield (r.repeated? min max) ds := by
    rw [yield, repeated?, Option.map_map]
    rfl
  by_cases hlazy : ∃ ds, cs = '?' :: ds
  · obtain ⟨ds, rfl⟩ := hlazy
    rw [branchOn_cons, ← hrepeated]
    rfl
  · have hne : ∀ ds, cs = '?' :: ds → False := fun ds heq => hlazy ⟨ds, heq⟩
    rw [branchOn_of_ne _ _ hne, readRepetition, ← hrepeated, skipLazy]
    exact hne

theorem steady_readRepetition (min : Nat) (max : Option Nat) :
    Steady taken (r.readRepetition min max) :=
  (Steady.branchOn (by decide) (.yield _) (.yield _)).congr (readRepetition_eq min max)

def readPart (r : Reader) : Take Reader :=
  Take.andThen (readPrimitive r.flags) fun x =>
    yield ((x.pattern? r.flags).map fun p => r.pushPart p 0)

theorem step_close (cs : List Char) : r.step (')' :: cs) = yield r.closeGroup cs :=
  rfl

theorem step_class (cs : List Char) :
    r.step ('[' :: cs) =
      Take.andThen (readClass r.flags) (fun p => yield (some (r.pushPart (ofClass p.1) p.2))) cs :=
  rfl

theorem step_counts (cs : List Char) :
    r.step ('\x7b' :: cs) =
      Take.andThen (readCounts r.flags)
        (fun p ds => r.readRepetition p.1 p.2 (r.flags.next ds)) cs :=
  rfl

def operators : List Char := ['(', ')', '|', '[', '?', '*', '+', '\x7b']

theorem step_of_not_operator {c : Char} (h : c ∉ operators) (cs : List Char) :
    r.step (c :: cs) = r.readPart (c :: cs) := by
  rw [step.eq_def]
  simp only [operators, List.mem_cons, not_or] at h
  split <;> simp_all
  refine congrArg (Option.bind _) (funext fun p => ?_)
  simp only [yield]
  cases p.1.pattern? r.flags <;> rfl

theorem steady_step {c : Char} (h : c ∈ operators) : Steady 1 fun cs => r.step (c :: cs) := by
  simp only [operators, List.mem_cons, List.not_mem_nil, or_false] at h
  rcases h with rfl | rfl | rfl | rfl | rfl | rfl | rfl | rfl
  · exact steady_readGroup
  · exact .yield _
  · exact .some _
  · exact (steady_readClass.andThen fun _ => .yield _).congr step_class
  · exact steady_readRepetition _ _
  · exact steady_readRepetition _ _
  · exact steady_readRepetition _ _
  · exact (steady_readCounts.andThen fun _ => (steady_readRepetition _ _).next _).congr step_counts

/-- A step is the same with a tail, but at a word boundary with cut off braces. -/
theorem local_step (c : Char) (cs : List Char) :
    Local 1 (fun ds => r.step (c :: ds)) cs ∨
      ∃ more, c :: cs = '\\' :: 'b' :: more ∧ OpensAtEnd r.flags more := by
  by_cases hc : c ∈ operators
  · exact .inl ((steady_step hc).near cs)
  · refine (local_readPrimitive c cs).imp_left fun h => ?_
    have hpart : Local 1 (Take.andThen (fun ds => readPrimitive r.flags (c :: ds)) fun x =>
        yield ((x.pattern? r.flags).map fun p => r.pushPart p 0)) cs :=
      h.andThen (n := 0) (fun _ => .yield _)
        (fun _ ds y rest hy => (Leaves.yield _ ds y rest hy).length_le)
        fun _ _ _ => (Steady.yield _).near _
    exact hpart.congr fun t _ => step_of_not_operator hc _

theorem suffix_of_step {c : Char} {cs rest : List Char} (h : r.step (c :: cs) = some (r', rest)) :
    rest <:+ cs := by
  by_cases hc : c ∈ operators
  · exact (steady_step hc).leaves cs r' rest h
  · rw [step_of_not_operator hc] at h
    obtain ⟨⟨x, rest'⟩, hx, hpart⟩ := Option.bind_eq_some_iff.mp h
    exact (Leaves.yield _ _ _ _ hpart).trans (suffix_of_readPrimitive hx)

-- ---------------------------------------------------------------------------
-- Inside a group
-- ---------------------------------------------------------------------------

def under (outermost : OpenGroup) (r : Reader) : Reader :=
  { r with groups := r.groups ++ [outermost] }

def Lifts (outermost : OpenGroup) (f f' : Take Reader) : Prop :=
  ∀ cs, f' cs = (f cs).map fun p => (p.1.under outermost, p.2)

variable {outermost : OpenGroup} {f f' g g' : Take Reader}

theorem Lifts.none : Lifts outermost (fun _ => none) fun _ => none :=
  fun _ => rfl

theorem Lifts.yield {o o' : Option Reader} (h : o' = o.map (under outermost)) :
    Lifts outermost (yield o) (yield o') := by
  intro cs
  rw [h]
  cases o <;> rfl

theorem Lifts.branchOn {k : Char} (hf : Lifts outermost f f') (hg : Lifts outermost g g') :
    Lifts outermost (branchOn k f g) (branchOn k f' g') := by
  intro cs
  cases cs with
  | nil => exact hg []
  | cons c cs =>
    rw [Pattern.branchOn, Pattern.branchOn]
    split
    · exact hf cs
    · exact hg (c :: cs)

theorem Lifts.andThen {α : Type} {f : Take α} {g g' : α → Take Reader}
    (h : ∀ x, Lifts outermost (g x) (g' x)) :
    Lifts outermost (Take.andThen f g) (Take.andThen f g') := by
  intro cs
  rw [Take.andThen, Take.andThen, Option.map_bind]
  exact congrArg (Option.bind _) (funext fun p => h p.1 p.2)

theorem Lifts.congr {f₀ f₀' : Take Reader} (h : Lifts outermost f f') (hf : ∀ cs, f₀ cs = f cs)
    (hf' : ∀ cs, f₀' cs = f' cs) : Lifts outermost f₀ f₀' := by
  intro cs
  rw [hf, hf', h cs]

theorem lifts_readFlagsEnd (letters : List FlagLetter) :
    Lifts outermost (r.readFlagsEnd letters) ((r.under outermost).readFlagsEnd letters) := by
  intro cs
  cases cs with
  | nil => rfl
  | cons c cs =>
    rw [readFlagsEnd, readFlagsEnd]
    split
    · cases letters <;> rfl
    · rfl

theorem openedAs?_under (name : List Char) :
    (r.under outermost).openedAs? name = (r.openedAs? name).map (under outermost) := by
  cases name with
  | nil => rfl
  | cons c name =>
    rw [openedAs?, openedAs?, under]
    split
    · split <;> rfl
    · rfl

theorem lifts_openNamed : Lifts outermost r.openNamed (r.under outermost).openNamed :=
  (Lifts.andThen fun _ => .yield (openedAs?_under _)).congr openNamed_eq openNamed_eq

theorem lifts_readMarked : Lifts outermost r.readMarked (r.under outermost).readMarked :=
  .branchOn .none (.branchOn .none (.branchOn (.branchOn lifts_openNamed .none)
    (.branchOn (.branchOn .none (.branchOn .none lifts_openNamed))
      (.andThen fun letters => lifts_readFlagsEnd letters))))

theorem lifts_readGroup : Lifts outermost r.readGroup (r.under outermost).readGroup := by
  intro cs
  rw [readGroup_eq, readGroup_eq]
  have hplain : Lifts outermost (fun ds => some (r.openGroup r.flags true, ds))
      fun ds => some ((r.under outermost).openGroup r.flags true, ds) :=
    fun _ => rfl
  exact (Lifts.branchOn lifts_readMarked hplain) (r.flags.next cs)

theorem lifts_readRepetition (min : Nat) (max : Option Nat) :
    Lifts outermost (r.readRepetition min max) ((r.under outermost).readRepetition min max) := by
  have hrepeated : (r.under outermost).repeated? min max =
      (r.repeated? min max).map (under outermost) := by
    rw [repeated?, repeated?, Option.map_map]
    rfl
  exact (Lifts.branchOn (.yield hrepeated) (.yield hrepeated)).congr (readRepetition_eq min max)
    (readRepetition_eq min max)

theorem lifts_readPart : Lifts outermost r.readPart (r.under outermost).readPart :=
  .andThen fun x => .yield (by rw [Option.map_map]; rfl)

theorem lifts_closeGroup (h : r.groups ≠ []) :
    Lifts outermost (Pattern.yield r.closeGroup)
      (Pattern.yield (r.under outermost).closeGroup) := by
  refine .yield ?_
  obtain ⟨flags, level, _ | ⟨opened, groups⟩, names⟩ := r
  · exact absurd rfl h
  · rfl

/-- Only the step at a closing bracket looks at the open groups, and at the innermost alone. -/
theorem step_under {c : Char} (h : c = ')' → r.groups ≠ []) (cs : List Char) :
    (r.under outermost).step (c :: cs) =
      (r.step (c :: cs)).map fun p => (p.1.under outermost, p.2) := by
  by_cases hc : c ∈ operators
  · simp only [operators, List.mem_cons, List.not_mem_nil, or_false] at hc
    rcases hc with rfl | rfl | rfl | rfl | rfl | rfl | rfl | rfl
    · exact lifts_readGroup cs
    · exact lifts_closeGroup (h rfl) cs
    · rfl
    · have hclass (p : CharClass × Nat) :
          Lifts outermost (Pattern.yield (some (r.pushPart (ofClass p.1) p.2)))
            (Pattern.yield (some ((r.under outermost).pushPart (ofClass p.1) p.2))) :=
        .yield rfl
      rw [step_class (r := r.under outermost), step_class]
      exact Lifts.andThen hclass cs
    · exact lifts_readRepetition _ _ cs
    · exact lifts_readRepetition _ _ cs
    · exact lifts_readRepetition _ _ cs
    · have hcounts (p : Nat × Option Nat) :
          Lifts outermost (fun ds => r.readRepetition p.1 p.2 (r.flags.next ds))
            fun ds => (r.under outermost).readRepetition p.1 p.2 (r.flags.next ds) :=
        fun ds => lifts_readRepetition p.1 p.2 (r.flags.next ds)
      rw [step_counts (r := r.under outermost), step_counts]
      exact Lifts.andThen hcounts cs
  · rw [step_of_not_operator hc, step_of_not_operator hc, lifts_readPart]

end Reader

end PackageAlgebra.Pattern
