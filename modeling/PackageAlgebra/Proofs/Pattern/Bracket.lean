import PackageAlgebra.Pattern.Bracket
import PackageAlgebra.Proofs.Pattern.Primitive
import PackageAlgebra.Proofs.Text.Cut

/-!
# Bracketed classes and the end of the text

A class ends with a closing square bracket, so no class is read into what stands
behind the text. What an item looks ahead to is the same with a tail.
-/

namespace PackageAlgebra.Pattern

variable {flags : Flags} {taken : Nat}

-- ---------------------------------------------------------------------------
-- Looking ahead
-- ---------------------------------------------------------------------------

def EndsRange (c : Char) : Prop := c = ']' ∨ c = '-'

theorem not_endsRange_of_isBlank {c : Char} (h : Text.isBlank c = true) : ¬EndsRange c := by
  rintro (rfl | rfl) <;> revert h <;> decide

theorem not_endsRange_tail {t : List Char} (ht : IsTail t) : ∀ c ∈ t.head?, ¬EndsRange c := by
  cases ht <;> simp [EndsRange]

theorem dropWhile_append_tail (cs : List Char) {t : List Char} (ht : IsTail t) :
    (cs ++ t).dropWhile Text.isBlank =
      if cs.dropWhile Text.isBlank = [] then t else cs.dropWhile Text.isBlank ++ t := by
  have htail : t.dropWhile Text.isBlank = t := by
    cases ht <;> rfl
  rw [List.dropWhile_append, htail]
  simp only [List.isEmpty_iff]

def seenBehind (behind : List Char) : List Char :=
  match behind.dropWhile Text.isBlank with
  | '#' :: comment => comment.dropWhile Text.isBlank
  | cs => cs

theorem seenBehind_append (behind : List Char) {t : List Char} (ht : IsTail t) :
    seenBehind (behind ++ t) = if seenBehind behind = [] then t else seenBehind behind ++ t := by
  rw [seenBehind, dropWhile_append_tail behind ht, seenBehind]
  cases behind.dropWhile Text.isBlank with
  | nil => cases ht <;> rfl
  | cons c cs =>
    by_cases hmark : c = '#'
    · subst hmark
      exact dropWhile_append_tail cs ht
    · simp [hmark]

theorem not_endsRange_of_seenBehind {behind : List Char} (h : seenBehind behind = []) :
    ∀ c ∈ behind.head?, ¬EndsRange c := by
  intro c hc
  obtain ⟨cs, rfl⟩ := List.head?_eq_some_iff.mp hc
  by_cases hblank : Text.isBlank c = true
  · exact not_endsRange_of_isBlank hblank
  · by_cases hmark : c = '#'
    · simp [EndsRange, hmark]
    · simp [seenBehind, hblank, hmark] at h

/-- Behind a comment mark, or blanks alone, there is what makes a range, be it only the tail. -/
theorem peekBehind_append (behind : List Char) {t : List Char} (ht : IsTail t) :
    peekBehind flags (behind ++ t) = peekBehind flags behind ∨
      (∀ c ∈ peekBehind flags (behind ++ t), ¬EndsRange c) ∧
        ∀ c ∈ peekBehind flags behind, ¬EndsRange c := by
  rw [peekBehind, peekBehind]
  split
  · cases behind with
    | nil => exact .inr ⟨not_endsRange_tail ht, nofun⟩
    | cons c behind => exact .inl rfl
  · change (seenBehind (behind ++ t)).head?.or (behind ++ t).head? =
        (seenBehind behind).head?.or behind.head? ∨
      (∀ c ∈ (seenBehind (behind ++ t)).head?.or (behind ++ t).head?, ¬EndsRange c) ∧
        ∀ c ∈ (seenBehind behind).head?.or behind.head?, ¬EndsRange c
    rw [seenBehind_append behind ht]
    cases hseen : seenBehind behind with
    | cons c cs => exact .inl rfl
    | nil =>
      have hbehind := not_endsRange_of_seenBehind hseen
      refine .inr ⟨?_, by simpa using hbehind⟩
      cases ht with
      | none => simpa using hbehind
      | bracket | whole => simp [EndsRange]

theorem isRangeMark_append (behind : List Char) {t : List Char} (ht : IsTail t) :
    isRangeMark flags (behind ++ t) = isRangeMark flags behind := by
  have hmark {found : Option Char} (h : ∀ c ∈ found, ¬EndsRange c) :
      found.all (fun c => c != ']' && c != '-') = true := by
    cases found with
    | none => rfl
    | some c => simpa [EndsRange] using h c rfl
  rw [isRangeMark, isRangeMark]
  rcases peekBehind_append behind ht with h | ⟨htail, h⟩
  · rw [h]
  · rw [hmark htail, hmark h]

-- ---------------------------------------------------------------------------
-- Items
-- ---------------------------------------------------------------------------

def classPart? : Primitive → Option Primitive
  | .assertion _ => none
  | x => some x

def readClassPart (flags : Flags) : Take Primitive :=
  Take.andThen (readItem flags) fun x => yield (classPart? x)

theorem boundaryOf?_assertion {name : List Char} {x : Primitive} (h : boundaryOf? name = some x) :
    ∃ kind, x = .assertion kind := by
  rw [boundaryOf?] at h
  split at h <;> cases h <;> exact ⟨_, rfl⟩

theorem readBoundary_assertion {cs rest : List Char} {x : Primitive}
    (h : readBoundary flags cs = some (x, rest)) : ∃ kind, x = .assertion kind := by
  by_cases hbrace : cs.head? = some '\x7b'
  · obtain ⟨more, rfl⟩ := List.head?_eq_some_iff.mp hbrace
    cases hnext : flags.next more with
    | nil =>
      rw [readBoundary_of_next_eq_nil hnext] at h
      cases h
    | cons c ds =>
      rw [readBoundary_of_next_eq_cons hnext] at h
      split at h
      · obtain ⟨⟨name, rest'⟩, -, hname⟩ := Option.bind_eq_some_iff.mp h
        obtain ⟨y, hy, heq⟩ := Option.map_eq_some_iff.mp hname
        cases heq
        exact boundaryOf?_assertion hy
      · cases h
        exact ⟨_, rfl⟩
  · rw [readBoundary_of_ne hbrace] at h
    cases h
    exact ⟨_, rfl⟩

theorem headed_readClassPart : Headed (readClassPart flags) := by
  refine ⟨rfl, fun c => ?_⟩
  by_cases hc : c = '\\'
  · subst hc
    refine (Headed.steady ⟨rfl, fun d => ?_⟩ :
      Steady 1 (Take.andThen (readEscape flags) fun x => yield (classPart? x))).congr fun _ => rfl
    by_cases hd : d = 'b'
    · subst hd
      refine Steady.none.congr fun cs => ?_
      rw [Take.andThen, readEscape_boundary]
      cases hboundary : readBoundary flags cs with
      | none => rfl
      | some p =>
        obtain ⟨kind, hkind⟩ := readBoundary_assertion (x := p.1) hboundary
        rw [Option.bind_some, hkind]
        rfl
    · exact ((steady_readEscape hd).andThen fun _ => .yield _).congr fun _ => rfl
  · refine (Steady.some (.literal c false)).congr fun cs => ?_
    rw [readClassPart, Take.andThen, readItem]
    · rfl
    · exact hc

def rangeOf? (flags : Flags) : Primitive → Primitive → Option CharClass
  | .literal a _, .literal b _ =>
    if a ≤ b && !(flags.ascii && b.toNat ≥ 0x80) then some (.range a b) else none
  | _, _ => none

def readBehindItem (flags : Flags) (first : Primitive) : Take CharClass
  | [] => none
  | c :: cs =>
    if c = '-' ∧ isRangeMark flags cs then
      Take.andThen (fun ds => readClassPart flags (flags.next ds))
        (fun last => yield (rangeOf? flags first last)) cs
    else yield (itemClass? flags first) (c :: cs)

theorem readBehindItem_assertion (kind : AssertionKind) (cs : List Char) :
    readBehindItem flags (.assertion kind) cs = none := by
  have hrange (last : Primitive) : rangeOf? flags (.assertion kind) last = none := rfl
  cases cs with
  | nil => rfl
  | cons c cs =>
    rw [readBehindItem, Take.andThen]
    simp [hrange, yield, itemClass?]

theorem readItemOrRange_eq (cs : List Char) :
    readItemOrRange flags cs =
      Take.andThen (readClassPart flags)
        (fun first ds => readBehindItem flags first (flags.next ds)) cs := by
  rw [readItemOrRange, Take.andThen, readClassPart, Take.andThen]
  cases readItem flags cs with
  | none => rfl
  | some p =>
    obtain ⟨first, rest⟩ := p
    have hfirst : (yield (classPart? first) rest).bind
        (fun q => readBehindItem flags q.1 (flags.next q.2)) =
          readBehindItem flags first (flags.next rest) := by
      cases first with
      | assertion kind => exact (readBehindItem_assertion kind _).symm
      | literal | dot | shorthand | property => rfl
    simp only [bind, Option.bind_some, hfirst]
    split
    next hnext => rw [hnext]; rfl
    next behind hnext =>
      rw [hnext, readBehindItem]
      by_cases hmark : isRangeMark flags behind = true
      · rw [if_pos hmark, if_pos ⟨rfl, hmark⟩, Take.andThen, readClassPart, Take.andThen]
        cases readItem flags (flags.next behind) with
        | none => rfl
        | some q =>
          cases first <;> cases hq : q.1 <;> simp [hq, yield, classPart?, rangeOf?]
      · rw [if_neg hmark, if_neg (fun h => hmark h.2)]
        cases itemClass? flags first <;> rfl
    next hnil hhyphen =>
      generalize flags.next rest = ds at hnil hhyphen
      cases ds with
      | nil => exact absurd rfl hnil
      | cons c ds =>
        rw [readBehindItem, if_neg (fun h => hhyphen ds (by rw [h.1]))]
        cases itemClass? flags first <;> rfl

theorem steady_readBehindItem (first : Primitive) : Steady 0 (readBehindItem flags first) := by
  have hlast : Steady 1 (Take.andThen (fun ds => readClassPart flags (flags.next ds))
      fun last => yield (rangeOf? flags first last)) :=
    (headed_readClassPart.steady.next flags).andThen fun _ => .yield _
  have hleaves : Leaves (readBehindItem flags first) := by
    intro cs x rest h
    cases cs with
    | nil => cases h
    | cons c cs =>
      rw [readBehindItem] at h
      split at h
      · exact (hlast.leaves _ _ _ h).trans (List.suffix_cons c cs)
      · exact Leaves.yield _ _ _ _ h
  refine ⟨hleaves, fun cs => ?_⟩
  cases cs with
  | nil => exact .beyond rfl fun t _ x rest h => (hleaves _ _ _ h).length_le
  | cons c cs =>
    by_cases hrange : c = '-' ∧ isRangeMark flags cs = true
    · refine (hlast.near cs).weaken.congr fun t ht => ?_
      rw [List.cons_append, readBehindItem, isRangeMark_append cs ht, if_pos hrange]
    · refine ((Steady.yield (itemClass? flags first)).near (c :: cs)).congr fun t ht => ?_
      rw [List.cons_append, readBehindItem, isRangeMark_append cs ht, if_neg hrange]

theorem steady_readItemOrRange : Steady 0 (readItemOrRange flags) :=
  (headed_readClassPart.steady.weaken.andThen fun first =>
    (steady_readBehindItem first).next flags).congr readItemOrRange_eq

theorem consumes_readItemOrRange : Consumes (readItemOrRange flags) := by
  intro cs x rest h
  rw [readItemOrRange_eq] at h
  exact headed_readClassPart.consumes.andThen
    (fun first => ((steady_readBehindItem first).next flags).leaves) cs x rest h

-- ---------------------------------------------------------------------------
-- Named classes
-- ---------------------------------------------------------------------------

def readClassName (flags : Flags) (negated : Bool) : Take (Option CharClass) :=
  fun cs =>
    match Text.cutFirst? [':'] cs with
    | some (name, ']' :: rest) =>
      (CharClass.named? (String.ofList name)).map fun set =>
        (flags.checked? (.negatedIf negated (flags.fold set)), rest)
    | _ => none

theorem readNamed_colon (cs : List Char) :
    readNamed flags (':' :: cs) =
      branchOn '^' (readClassName flags true) (readClassName flags false) cs := by
  rcases cs with _ | ⟨c, cs⟩
  · rfl
  · by_cases hc : c = '^'
    · subst hc
      rfl
    · have hne : ∀ ds, c :: cs = '^' :: ds → False := fun ds heq => hc (List.cons.inj heq).1
      rw [branchOn_of_ne _ _ hne, readNamed]
      · rfl
      · exact hne

theorem readNamed_eq (cs : List Char) :
    readNamed flags cs =
      branchOn ':' (branchOn '^' (readClassName flags true) (readClassName flags false))
        (fun _ => none) cs := by
  by_cases hcs : ∃ ds, cs = ':' :: ds
  · obtain ⟨ds, rfl⟩ := hcs
    rw [branchOn_cons, readNamed_colon]
  · have hne : ∀ ds, cs = ':' :: ds → False := fun ds heq => hcs ⟨ds, heq⟩
    rw [branchOn_of_ne _ _ hne, readNamed.eq_def]
    split
    next ds => exact (hne ds rfl).elim
    next => rfl

theorem exact_readClassName (negated : Bool) : Exact (readClassName flags negated) := by
  intro cs t ht
  have hcolon : ':' ∉ t := by
    cases ht <;> decide
  rw [readClassName, readClassName, Text.cutFirst?_append_right hcolon]
  cases Text.cutFirst? [':'] cs with
  | none => rfl
  | some p =>
    obtain ⟨name, _ | ⟨c, rest⟩⟩ := p
    · cases ht <;> rfl
    · by_cases hc : c = ']'
      · subst hc
        simp [Function.comp_def]
      · simp [hc]

theorem exact_readNamed : Exact (readNamed flags) := by
  intro cs t ht
  rw [readNamed_eq, readNamed_eq]
  exact Exact.branchOn (by decide)
    (.branchOn (by decide) (exact_readClassName true) (exact_readClassName false))
    (fun _ _ _ => rfl) cs t ht

theorem leaves_readClassName (negated : Bool) : Leaves (readClassName flags negated) := by
  intro cs x rest h
  rw [readClassName] at h
  split at h
  next name ds hcut =>
    obtain ⟨set, -, heq⟩ := Option.map_eq_some_iff.mp h
    cases heq
    exact ⟨name ++ [':', ']'], by rw [Text.join_of_cutFirst? hcut]; simp⟩
  next => cases h

theorem leaves_readNamed : Leaves (readNamed flags) := by
  intro cs x rest h
  rw [readNamed_eq] at h
  have hname : Leaves (branchOn '^' (readClassName flags true) (readClassName flags false)) :=
    (leaves_readClassName true).branchOn (leaves_readClassName false)
  exact hname.branchOn (Leaves.yield none) cs x rest h

-- ---------------------------------------------------------------------------
-- The start of a class
-- ---------------------------------------------------------------------------

def addHyphens (s : PartialSet) (hyphens : List Char) : PartialSet :=
  hyphens.foldl (fun s _ => s.add (.single '-') 0) s

theorem takeHyphens_eq (fuel : Nat) (s : PartialSet) (cs : List Char) :
    some (takeHyphens flags fuel s cs) =
      (takeRun flags (· == '-') fuel cs).map fun p => (addHyphens s p.1, p.2) := by
  induction fuel generalizing s cs with
  | zero => rfl
  | succ fuel ih =>
    cases cs with
    | nil => rfl
    | cons c cs =>
      by_cases hc : c = '-'
      · subst hc
        rw [takeHyphens, ih, takeRun, if_pos (by rfl), Option.map_map]
        rfl
      · rw [takeHyphens, takeRun, if_neg (by simpa using hc)]
        · rfl
        · simp [hc]

def readStart (flags : Flags) : Take PartialSet :=
  branchOn ']' (fun cs => some (PartialSet.empty.add (.single ']') 0, flags.next cs))
    fun cs => (takeRun flags (· == '-') cs.length cs).map fun p => (addHyphens .empty p.1, p.2)

theorem steady_readStart : Steady taken (readStart flags) :=
  .branchOn (by decide) ((Steady.some _).next flags) ((steady_takeAllRun (by decide)).map _)

def readBracketStart (flags : Flags) : Take (Bool × PartialSet) :=
  fun cs =>
    branchOn '^' (fun ds => (readStart flags (flags.next ds)).map fun p => ((true, p.1), p.2))
      (fun ds => (readStart flags ds).map fun p => ((false, p.1), p.2)) (flags.next cs)

theorem readStart_of_ne {cs : List Char} (h : ∀ ds, cs = ']' :: ds → False) :
    readStart flags cs = some (takeHyphens flags cs.length .empty cs) := by
  rw [readStart, branchOn_of_ne _ _ h, takeHyphens_eq]

theorem readOpening_eq (cs : List Char) :
    readBracketStart flags cs =
      some (((readOpening flags cs).1, (readOpening flags cs).2.1),
        (readOpening flags cs).2.2) := by
  rw [readBracketStart, readOpening]
  split
  next negated cs' hmatch =>
    split at hmatch
    next more heq =>
      cases hmatch
      rw [heq, branchOn_cons]
      split
      next more' heq' => rw [heq', readStart, branchOn_cons]; rfl
      next hne => rw [readStart_of_ne hne]; rfl
    next hne =>
      cases hmatch
      rw [branchOn_of_ne _ _ hne]
      split
      next more' heq' => rw [heq', readStart, branchOn_cons]; rfl
      next hne => rw [readStart_of_ne hne]; rfl

theorem steady_readBracketStart : Steady taken (readBracketStart flags) :=
  (Steady.branchOn (by decide) ((steady_readStart.next flags).map _)
    (steady_readStart.map _)).next flags

theorem leaves_readBracketStart : Leaves (readBracketStart flags) :=
  (steady_readBracketStart : Steady 0 _).leaves

-- ---------------------------------------------------------------------------
-- Classes
-- ---------------------------------------------------------------------------

def readInner (flags : Flags) (fuel : Nat) (s : PartialSet) : Take PartialSet :=
  fun cs =>
    match readNamed flags cs with
    | some (set, rest) => set.bind fun set => readItems flags fuel (s.add set 0) rest
    | none =>
      Take.andThen (readBracket flags fuel) (fun p => readItems flags fuel (s.add p.1 p.2)) cs

def readItemsNext (flags : Flags) (fuel : Nat) (s : PartialSet) : Take PartialSet :=
  branchOn ']' (fun cs => some (s, cs))
    (branchOn '[' (readInner flags fuel s)
      (branchOnTwo '&' (readItems flags fuel (s.operator flags .intersection))
        (branchOnTwo '-' (readItems flags fuel (s.operator flags .difference))
          (branchOnTwo '~' (readItems flags fuel (s.operator flags .symmetric))
            (Take.andThen (readItemOrRange flags) fun set =>
              readItems flags fuel (s.add set 0))))))

theorem readItems_succ (fuel : Nat) (s : PartialSet) (cs : List Char) :
    readItems flags (fuel + 1) s cs = readItemsNext flags fuel s (flags.next cs) := by
  rw [readItems, readItemsNext]
  split
  next hnext => rw [hnext]; rfl
  next ds hnext => rw [hnext, branchOn_cons]
  next ds hnext =>
    rw [hnext, branchOn_of_ne _ _ (by simp), branchOn_cons, readInner]
    cases readNamed flags ds with
    | none => rfl
    | some p => obtain ⟨_ | set, rest⟩ := p <;> rfl
  next ds hnext =>
    rw [hnext, branchOn_of_ne _ _ (by simp), branchOn_of_ne _ _ (by simp), branchOnTwo_cons]
  next ds hnext =>
    rw [hnext, branchOn_of_ne _ _ (by simp), branchOn_of_ne _ _ (by simp),
      branchOnTwo_of_ne _ _ (by simp), branchOnTwo_cons]
  next ds hnext =>
    rw [hnext, branchOn_of_ne _ _ (by simp), branchOn_of_ne _ _ (by simp),
      branchOnTwo_of_ne _ _ (by simp), branchOnTwo_of_ne _ _ (by simp), branchOnTwo_cons]
  next hclose hopen hand hminus htilde =>
    rw [branchOn_of_ne _ _ hclose, branchOn_of_ne _ _ hopen, branchOnTwo_of_ne _ _ hand,
      branchOnTwo_of_ne _ _ hminus, branchOnTwo_of_ne _ _ htilde]
    rfl

def closeBracket (flags : Flags) (negated : Bool) (s : PartialSet) : Option (CharClass × Nat) :=
  (flags.checked? (.negatedIf negated (flags.fold (s.combined flags)))).map (·, s.height + 1)

theorem readBracket_succ (fuel : Nat) (cs : List Char) :
    readBracket flags (fuel + 1) cs =
      Take.andThen (readBracketStart flags)
        (fun start => Take.andThen (readItems flags fuel start.2) fun s =>
          yield (closeBracket flags start.1 s)) cs := by
  rw [readBracket, Take.andThen, readOpening_eq]
  simp only [Option.bind_some, Take.andThen]
  refine congrArg (Option.bind _) (funext fun p => ?_)
  simp only [yield, closeBracket]
  cases flags.checked? (.negatedIf (readOpening flags cs).1 (flags.fold (p.1.combined flags))) <;>
    rfl

section

variable {fuel : Nat} (hbracket : Steady 1 (readBracket flags fuel))
  (hitems : ∀ s, Steady 1 (readItems flags fuel s) ∧ Consumes (readItems flags fuel s))

include hbracket hitems

theorem steady_readInner (s : PartialSet) : Steady 1 (readInner flags fuel s) := by
  have hinner : Steady 1 (Take.andThen (readBracket flags fuel) fun p =>
      readItems flags fuel (s.add p.1 p.2)) :=
    hbracket.andThen fun _ => (hitems _).1
  refine ⟨fun cs x rest h => ?_, fun cs => ?_⟩
  · rw [readInner] at h
    split at h
    next set ds hnamed =>
      obtain ⟨set, rfl, hset⟩ := Option.bind_eq_some_iff.mp h
      exact ((hitems _).1.leaves _ _ _ hset).trans (leaves_readNamed _ _ _ hnamed)
    next => exact hinner.leaves _ _ _ h
  · cases hnamed : readNamed flags cs with
    | none =>
      refine (hinner.near cs).congr fun t ht => ?_
      rw [readInner, exact_readNamed cs t ht, hnamed]
      rfl
    | some p =>
      obtain ⟨_ | set, rest⟩ := p
      · refine ((Steady.none (α := PartialSet)).near rest).congr fun t ht => ?_
        rw [readInner, exact_readNamed cs t ht, hnamed]
        rfl
      · refine ((hitems (s.add set 0)).1.near rest).congr fun t ht => ?_
        rw [readInner, exact_readNamed cs t ht, hnamed]
        rfl

theorem steady_readItemsNext (s : PartialSet) : Steady 1 (readItemsNext flags fuel s) :=
  .branchOn (by decide) (.some s)
    (.branchOn (by decide) (steady_readInner hbracket hitems s)
      (.branchOnTwo (by decide) (hitems _).1
        (.branchOnTwo (by decide) (hitems _).1
          (.branchOnTwo (by decide) (hitems _).1
            (steady_readItemOrRange.andThen_consumes (fun _ => (hitems _).1)
              fun _ => (hitems _).2)))))

theorem consumes_readItemsNext (s : PartialSet) : Consumes (readItemsNext flags fuel s) :=
  .branchOn (.yield (some s))
    (.branchOn (steady_readInner hbracket hitems s).leaves
      (.branchOnTwo (hitems _).1.leaves
        (.branchOnTwo (hitems _).1.leaves
          (.branchOnTwo (hitems _).1.leaves
            (consumes_readItemOrRange.andThen fun _ => (hitems _).1.leaves)))))

end

theorem steady_readBracket_readItems (fuel : Nat) :
    Steady 1 (readBracket flags fuel) ∧
      ∀ s, Steady 1 (readItems flags fuel s) ∧ Consumes (readItems flags fuel s) := by
  induction fuel with
  | zero =>
    refine ⟨Steady.none.congr fun _ => ?_, fun s => ⟨Steady.none.congr fun _ => ?_, ?_⟩⟩
    · rw [readBracket]
    · rw [readItems]
    · intro cs x rest h
      rw [readItems] at h
      cases h
  | succ fuel ih =>
    obtain ⟨hbracket, hitems⟩ := ih
    refine ⟨?_, fun s => ⟨?_, ?_⟩⟩
    · exact (steady_readBracketStart.andThen fun start =>
        (hitems start.2).1.andThen fun _ => .yield _).congr (readBracket_succ fuel)
    · exact ((steady_readItemsNext hbracket hitems s).next flags).congr (readItems_succ fuel s)
    · intro cs x rest h
      rw [readItems_succ] at h
      exact (consumes_readItemsNext hbracket hitems s).next flags cs x rest h

-- ---------------------------------------------------------------------------
-- Enough fuel
-- ---------------------------------------------------------------------------

/-- A class of this length is read alike with so much fuel and more. -/
theorem readBracket_readItems_fuel (fuel : Nat) :
    (∀ fuel' cs, 2 * cs.length + 2 ≤ fuel → 2 * cs.length + 2 ≤ fuel' →
      readBracket flags fuel cs = readBracket flags fuel' cs) ∧
    ∀ fuel' s cs, 2 * cs.length + 1 ≤ fuel → 2 * cs.length + 1 ≤ fuel' →
      readItems flags fuel s cs = readItems flags fuel' s cs := by
  induction fuel with
  | zero => exact ⟨fun _ cs h => absurd h (by omega), fun _ _ cs h => absurd h (by omega)⟩
  | succ fuel ih =>
    obtain ⟨hbracket, hitems⟩ := ih
    refine ⟨fun fuel' cs h h' => ?_, fun fuel' s cs h h' => ?_⟩
    · obtain ⟨fuel', rfl⟩ : ∃ n, fuel' = n + 1 := ⟨fuel' - 1, by omega⟩
      rw [readBracket_succ, readBracket_succ]
      refine Take.andThen_congr fun start rest hstart => ?_
      have hrest := (leaves_readBracketStart _ _ _ hstart).length_le
      rw [Take.andThen, Take.andThen, hitems fuel' start.2 rest (by omega) (by omega)]
    · obtain ⟨fuel', rfl⟩ : ∃ n, fuel' = n + 1 := ⟨fuel' - 1, by omega⟩
      rw [readItems_succ, readItems_succ, readItemsNext, readItemsNext]
      have hnext := (flags.next_suffix cs).length_le
      generalize flags.next cs = ds at hnext
      have hrest : ∀ s es, es.length + 1 ≤ ds.length →
          readItems flags fuel s es = readItems flags fuel' s es :=
        fun s es _ => hitems fuel' s es (by omega) (by omega)
      refine branchOn_congr (fun _ _ => rfl) (branchOn_congr (fun es hes => ?_)
        (branchOnTwo_congr (fun es hes => hrest _ es (by simp [hes]))
          (branchOnTwo_congr (fun es hes => hrest _ es (by simp [hes]))
            (branchOnTwo_congr (fun es hes => hrest _ es (by simp [hes]))
              (Take.andThen_congr fun set rest hset =>
                hrest _ rest (consumes_readItemOrRange _ _ _ hset))))))
      have hes : es.length + 1 ≤ ds.length := by simp [hes]
      rw [readInner, readInner]
      cases hnamed : readNamed flags es with
      | some p =>
        have hbehind := (leaves_readNamed _ _ _ hnamed).length_le
        exact Option.bind_congr fun set _ => hrest _ _ (by omega)
      | none =>
        change Take.andThen _ _ _ = Take.andThen _ _ _
        rw [Take.andThen, Take.andThen, ← hbracket fuel' es (by omega) (by omega)]
        refine Option.bind_congr fun p hp => hrest _ _ ?_
        have hbehind := ((steady_readBracket_readItems fuel).1.leaves _ _ _ hp).length_le
        omega

def readClass (flags : Flags) : Take (CharClass × Nat) :=
  fun cs => readBracket flags (2 * cs.length + 2) cs

theorem steady_readClass : Steady 1 (readClass flags) :=
  .of_fuel (fun cs => 2 * cs.length + 2) (fun fuel => (steady_readBracket_readItems fuel).1)
    fun fuel cs h => (readBracket_readItems_fuel fuel).1 _ cs h (Nat.le_refl _)

end PackageAlgebra.Pattern
