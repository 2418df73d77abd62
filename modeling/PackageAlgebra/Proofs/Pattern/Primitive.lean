import PackageAlgebra.Proofs.Pattern.Local

/-!
# The smallest parts and the end of the text

A closing bracket behind the text ends no number, no name and no escape, so the
smallest parts of a pattern are read as they are without it. Only a word
boundary may be followed by braces that the end of the text cuts off.
-/

namespace PackageAlgebra.Pattern

variable {flags : Flags} {taken : Nat}

theorem takeHex_cons (count : Nat) (c : Char) (cs : List Char) :
    takeHex flags (count + 1) (c :: cs) =
      if isHexDigit c then (takeHex flags count (flags.next cs)).map fun p => (c :: p.1, p.2)
      else none :=
  rfl

theorem steady_takeHex (count : Nat) : Steady 1 (takeHex flags count) := by
  induction count with
  | zero => exact .some []
  | succ count ih =>
    refine Headed.steady ⟨rfl, fun c => ?_⟩
    by_cases hdigit : isHexDigit c = true
    · exact ((ih.next flags).map (c :: ·)).congr fun cs => by rw [takeHex_cons, if_pos hdigit]
    · exact Steady.none.congr fun cs => by rw [takeHex_cons, if_neg hdigit]

-- ---------------------------------------------------------------------------
-- Digits and runs of characters
-- ---------------------------------------------------------------------------

/-- Takes the characters at the front that pass a test, and what may be left out behind each of
them. The digits of a count and the hyphens at the start of a class are taken so. -/
def takeRun (flags : Flags) (admits : Char → Bool) : Nat → Take (List Char)
  | 0, cs => some ([], cs)
  | _, [] => some ([], [])
  | fuel + 1, c :: cs =>
    if admits c then (takeRun flags admits fuel (flags.next cs)).map fun p => (c :: p.1, p.2)
    else some ([], c :: cs)

section

variable {admits : Char → Bool}

theorem takeRun_fuel {fuel fuel' : Nat} {cs : List Char} (h : cs.length ≤ fuel)
    (h' : cs.length ≤ fuel') : takeRun flags admits fuel cs = takeRun flags admits fuel' cs := by
  induction fuel generalizing fuel' cs with
  | zero =>
    rw [List.eq_nil_of_length_eq_zero (Nat.le_zero.mp h)]
    cases fuel' <;> rfl
  | succ fuel ih =>
    cases cs with
    | nil => cases fuel' <;> rfl
    | cons c cs =>
      cases fuel' with
      | zero => cases h'
      | succ fuel' =>
        have hnext := (flags.next_suffix cs).length_le
        rw [takeRun, takeRun, ih (Nat.le_trans hnext (Nat.le_of_succ_le_succ h))
          (Nat.le_trans hnext (Nat.le_of_succ_le_succ h'))]

theorem steady_takeRun (hadmits : admits ')' = false) (fuel : Nat) :
    Steady taken (takeRun flags admits fuel) := by
  induction fuel with
  | zero => exact .some []
  | succ fuel ih =>
    have hmore (c : Char) : Steady taken fun cs =>
        (takeRun flags admits fuel (flags.next cs)).map fun p => (c :: p.1, p.2) :=
      (ih.next flags).map (c :: ·)
    refine ⟨fun cs run rest h => ?_, fun cs => ?_⟩
    · cases cs with
      | nil =>
        cases h
        exact List.suffix_rfl
      | cons c cs =>
        rw [takeRun] at h
        split at h
        · exact ((hmore c).leaves _ _ _ h).trans (List.suffix_cons c cs)
        · cases h
          exact List.suffix_rfl
    · cases cs with
      | nil =>
        refine .within [] [] fun t ht => ?_
        cases ht with
        | none => rfl
        | bracket | whole =>
          rw [List.nil_append, takeRun, if_neg (by simp [hadmits])]
      | cons c cs =>
        by_cases hc : admits c = true
        · exact ((hmore c).near cs).congr fun t _ => by rw [List.cons_append, takeRun, if_pos hc]
        · refine .within [] (c :: cs) fun t _ => ?_
          rw [List.cons_append, takeRun, if_neg hc]

theorem steady_takeAllRun (hadmits : admits ')' = false) :
    Steady taken fun cs => takeRun flags admits cs.length cs :=
  .of_fuel List.length (steady_takeRun hadmits) fun _ _ h => takeRun_fuel h (Nat.le_refl _)

end

-- ---------------------------------------------------------------------------
-- Names in braces
-- ---------------------------------------------------------------------------

/-- Takes characters up to a closing brace, and perhaps blanks and comments behind it. Numbers,
names of properties and names of word boundaries are all taken so. -/
def takeBraced (flags : Flags) (admits : Char → Bool) (skips : Bool) : Nat → Take (List Char)
  | 0, _ => none
  | _, [] => none
  | fuel + 1, c :: cs =>
    if c = '\x7d' then some ([], if skips then flags.next cs else cs)
    else if admits c then
      (takeBraced flags admits skips fuel (flags.next cs)).map fun p => (c :: p.1, p.2)
    else none

theorem takeBracedHex_eq (fuel : Nat) (cs : List Char) :
    takeBracedHex flags fuel cs = takeBraced flags isHexDigit true fuel cs := by
  induction fuel generalizing cs with
  | zero => rfl
  | succ fuel ih =>
    cases cs with
    | nil => rfl
    | cons c cs => simp [takeBracedHex, takeBraced, ih]

theorem takeName_eq (fuel : Nat) (cs : List Char) :
    takeName flags fuel cs = takeBraced flags (fun _ => true) false fuel cs := by
  induction fuel generalizing cs with
  | zero => rfl
  | succ fuel ih =>
    cases cs with
    | nil => rfl
    | cons c cs => simp [takeName, takeBraced, ih]

theorem takeBoundaryName_eq (fuel : Nat) (cs : List Char) :
    takeBoundaryName flags fuel cs = takeBraced flags isBoundaryChar false fuel cs := by
  induction fuel generalizing cs with
  | zero => rfl
  | succ fuel ih =>
    cases cs with
    | nil => rfl
    | cons c cs => simp [takeBoundaryName, takeBraced, ih]

section

variable {admits : Char → Bool} {skips : Bool}

theorem takeBraced_fuel {fuel fuel' : Nat} {cs : List Char} (h : cs.length ≤ fuel)
    (h' : cs.length ≤ fuel') :
    takeBraced flags admits skips fuel cs = takeBraced flags admits skips fuel' cs := by
  induction fuel generalizing fuel' cs with
  | zero =>
    rw [List.eq_nil_of_length_eq_zero (Nat.le_zero.mp h)]
    cases fuel' <;> rfl
  | succ fuel ih =>
    cases cs with
    | nil => cases fuel' <;> rfl
    | cons c cs =>
      cases fuel' with
      | zero => cases h'
      | succ fuel' =>
        have hnext := (flags.next_suffix cs).length_le
        rw [takeBraced, takeBraced, ih (Nat.le_trans hnext (Nat.le_of_succ_le_succ h))
          (Nat.le_trans hnext (Nat.le_of_succ_le_succ h'))]

theorem headed_takeBraced (fuel : Nat) : Headed (takeBraced flags admits skips fuel) := by
  induction fuel with
  | zero => exact ⟨rfl, fun _ => Steady.none⟩
  | succ fuel ih =>
    refine ⟨rfl, fun c => ?_⟩
    by_cases hbrace : c = '\x7d'
    · cases skips with
      | false =>
        exact (Steady.some []).congr fun cs => by
          rw [takeBraced, if_pos hbrace, if_neg Bool.false_ne_true]
      | true =>
        exact ((Steady.some ([] : List Char)).next flags).congr fun cs => by
          rw [takeBraced, if_pos hbrace, if_pos rfl]
    · by_cases hadmits : admits c = true
      · exact ((ih.steady.next flags).map (c :: ·)).congr fun cs => by
          rw [takeBraced, if_neg hbrace, if_pos hadmits]
      · exact Steady.none.congr fun cs => by rw [takeBraced, if_neg hbrace, if_neg hadmits]

def takeAllBraced (flags : Flags) (admits : Char → Bool) (skips : Bool) : Take (List Char) :=
  fun cs => takeBraced flags admits skips cs.length cs

theorem takeBraced_eq {fuel : Nat} {cs : List Char} (h : cs.length ≤ fuel) :
    takeBraced flags admits skips fuel cs = takeAllBraced flags admits skips cs :=
  takeBraced_fuel h (Nat.le_refl _)

theorem headed_takeAllBraced : Headed (takeAllBraced flags admits skips) :=
  .of_fuel List.length headed_takeBraced fun _ _ h => takeBraced_eq h

end

-- ---------------------------------------------------------------------------
-- Characters by number, and properties
-- ---------------------------------------------------------------------------

def characterOf? (isByte : Bool) (digits : List Char) : Option Primitive :=
  (charOfValue? (hexValue digits)).map (.literal · isByte)

def readBracedNumber (flags : Flags) : Take Primitive :=
  Take.andThen (fun cs => takeAllBraced flags isHexDigit true (flags.next cs)) fun digits =>
    yield (if digits.isEmpty then none else characterOf? false digits)

def readNumber (flags : Flags) (count : Nat) : Take Primitive :=
  Take.andThen (takeHex flags count) fun digits => yield (characterOf? (count == 2) digits)

theorem readHex_eq (count : Nat) (cs : List Char) :
    readHex flags count cs =
      branchOn '\x7b' (readBracedNumber flags) (readNumber flags count) (flags.next cs) := by
  rw [readHex]
  split
  next ds hds =>
    rw [hds, branchOn_cons, takeBracedHex_eq, takeBraced_eq (flags.next_suffix ds).length_le]
    refine congrArg (Option.bind _) (funext fun p => ?_)
    simp only [yield, characterOf?]
    split
    · rfl
    · cases charOfValue? (hexValue p.1) <;> rfl
  next hbrace =>
    rw [branchOn_of_ne _ _ hbrace]
    refine congrArg (Option.bind _) (funext fun p => ?_)
    simp only [yield, characterOf?]
    cases charOfValue? (hexValue p.1) <;> rfl

theorem steady_readBracedNumber : Steady 1 (readBracedNumber flags) :=
  (headed_takeAllBraced.steady.next flags).andThen fun _ => .yield _

theorem steady_readNumber (count : Nat) : Steady 1 (readNumber flags count) :=
  (steady_takeHex count).andThen fun _ => .yield _

theorem steady_readHex (count : Nat) : Steady 1 (readHex flags count) :=
  ((Steady.branchOn (by decide) steady_readBracedNumber (steady_readNumber count)).next flags).congr
    (readHex_eq count)

def readPropertyName (flags : Flags) (negated : Bool) : Take Primitive :=
  Take.andThen (fun cs => takeAllBraced flags (fun _ => true) false (flags.next cs)) fun name =>
    yield ((bracedClass? name).map fun p => .property p.1 (negated != p.2))

def readPropertyLetter (flags : Flags) (negated : Bool) : Take Primitive
  | [] => none
  | c :: cs =>
    yield ((CharClass.byName? (String.singleton c)).map (.property · negated)) (flags.next cs)

theorem readProperty_eq (negated : Bool) (cs : List Char) :
    readProperty flags negated cs =
      branchOn '\x7b' (readPropertyName flags negated)
        (branchOn '\\' (fun _ => none) (readPropertyLetter flags negated)) (flags.next cs) := by
  rw [readProperty]
  split
  next ds hds =>
    rw [hds, branchOn_cons, takeName_eq, takeBraced_eq (flags.next_suffix ds).length_le]
    refine congrArg (Option.bind _) (funext fun p => ?_)
    simp only [yield]
    cases bracedClass? p.1 <;> rfl
  next hds => rw [hds, branchOn_of_ne _ _ (by simp), branchOn_cons]
  next hds => rw [hds]; rfl
  next c ds hbrace hslash hds =>
    rw [hds, branchOn_of_ne _ _ (by simpa using hbrace), branchOn_of_ne _ _ (by simpa using hslash),
      readPropertyLetter]
    simp only [yield]
    cases CharClass.byName? (String.singleton c) <;> rfl

theorem steady_readPropertyName (negated : Bool) : Steady 1 (readPropertyName flags negated) :=
  (headed_takeAllBraced.steady.next flags).andThen fun _ => .yield _

theorem headed_readPropertyLetter (negated : Bool) : Headed (readPropertyLetter flags negated) :=
  ⟨rfl, fun _ => (Steady.yield _).next flags⟩

theorem steady_readProperty (negated : Bool) : Steady 1 (readProperty flags negated) :=
  ((Steady.branchOn (by decide) (steady_readPropertyName negated)
    (.branchOn (by decide) .none (headed_readPropertyLetter negated).steady)).next flags).congr
    (readProperty_eq negated)

def longEscapes : List Char := ['x', 'u', 'U', 'p', 'P', 'b']

theorem readEscape_eq_yield {c : Char} (h : c ∉ longEscapes) (cs : List Char) :
    readEscape flags (c :: cs) = yield ((readEscape flags [c]).map (·.1)) cs := by
  rw [readEscape.eq_def, readEscape.eq_def]
  simp only [longEscapes, List.mem_cons, not_or] at h
  simp only
  split
  · rfl
  · split <;> first | rfl | simp_all

theorem steady_readEscape {c : Char} (h : c ≠ 'b') :
    Steady 1 fun cs => readEscape flags (c :: cs) := by
  by_cases hlong : c ∈ longEscapes
  · simp only [longEscapes, List.mem_cons, h, List.not_mem_nil, or_false] at hlong
    rcases hlong with rfl | rfl | rfl | rfl | rfl
    · exact steady_readHex 2
    · exact steady_readHex 4
    · exact steady_readHex 8
    · exact steady_readProperty false
    · exact steady_readProperty true
  · exact (Steady.yield _).congr (readEscape_eq_yield hlong)

-- ---------------------------------------------------------------------------
-- Word boundaries
-- ---------------------------------------------------------------------------

def boundaryOf? (name : List Char) : Option Primitive :=
  match String.ofList name with
  | "start" => some (.assertion .wordStart)
  | "end" => some (.assertion .wordEnd)
  | "start-half" => some (.assertion .wordStartHalf)
  | "end-half" => some (.assertion .wordEndHalf)
  | _ => none

def readBoundaryName (flags : Flags) : Take Primitive :=
  Take.andThen (takeAllBraced flags isBoundaryChar false) fun name => yield (boundaryOf? name)

theorem headed_readBoundaryName : Headed (readBoundaryName flags) :=
  headed_takeAllBraced.andThen fun _ => .yield _

theorem readBoundary_of_ne {cs : List Char} (h : cs.head? ≠ some '\x7b') :
    readBoundary flags cs = some (.assertion .wordBoundary, cs) := by
  rw [readBoundary]
  rintro more rfl
  exact h rfl

theorem readBoundary_of_next_eq_nil {more : List Char} (h : flags.next more = []) :
    readBoundary flags ('\x7b' :: more) = none := by
  rw [readBoundary]
  simp only [h]

theorem readBoundary_of_next_eq_cons {more rest : List Char} {c : Char}
    (h : flags.next more = c :: rest) :
    readBoundary flags ('\x7b' :: more) =
      if isBoundaryChar c then readBoundaryName flags (c :: rest)
      else some (.assertion .wordBoundary, '\x7b' :: more) := by
  rw [readBoundary]
  simp only [h]
  split
  · have hfuel : takeAllBraced flags isBoundaryChar false (c :: rest) =
        takeBraced flags isBoundaryChar false (rest.length + 1) (c :: rest) := rfl
    rw [takeBoundaryName_eq, readBoundaryName, Take.andThen, hfuel]
    cases takeBraced flags isBoundaryChar false (rest.length + 1) (c :: rest) with
    | none => rfl
    | some p =>
      simp only [Option.bind_some, yield, boundaryOf?]
      split <;> simp_all
  · rfl

def OpensAtEnd (flags : Flags) (cs : List Char) : Prop :=
  ∃ more, cs = '\x7b' :: more ∧ flags.next more = [] ∧ ∀ t, IsTail t → flags.next (more ++ t) = t

theorem leaves_readBoundary : Leaves (readBoundary flags) := by
  intro cs x rest h
  by_cases hbrace : cs.head? = some '\x7b'
  · obtain ⟨more, rfl⟩ := List.head?_eq_some_iff.mp hbrace
    cases hnext : flags.next more with
    | nil =>
      rw [readBoundary_of_next_eq_nil hnext] at h
      cases h
    | cons c ds =>
      rw [readBoundary_of_next_eq_cons hnext] at h
      split at h
      · have hds : c :: ds <:+ more := hnext ▸ flags.next_suffix more
        exact (headed_readBoundaryName.steady.leaves _ _ _ h).trans
          (hds.trans (List.suffix_cons _ more))
      · cases h
        exact List.suffix_rfl
  · rw [readBoundary_of_ne hbrace] at h
    cases h
    exact List.suffix_rfl

theorem local_readBoundary (cs : List Char) :
    Local 1 (readBoundary flags) cs ∨ OpensAtEnd flags cs := by
  by_cases hbrace : cs.head? = some '\x7b'
  · obtain ⟨more, rfl⟩ := List.head?_eq_some_iff.mp hbrace
    rcases flags.next_append more with h | h
    · cases hnext : flags.next more with
      | nil =>
        refine .inr ⟨more, rfl, hnext, fun t ht => ?_⟩
        rw [h t ht, hnext, List.nil_append]
      | cons c ds =>
        have htail {t : List Char} (ht : IsTail t) : flags.next (more ++ t) = c :: (ds ++ t) := by
          rw [h t ht, hnext, List.cons_append]
        left
        by_cases hname : isBoundaryChar c = true
        · exact (headed_readBoundaryName.steady.near (c :: ds)).congr fun t ht => by
            rw [List.cons_append, readBoundary_of_next_eq_cons (htail ht), if_pos hname,
              List.cons_append]
        · exact .within _ _ fun t ht => by
            rw [List.cons_append, readBoundary_of_next_eq_cons (htail ht), if_neg hname]
    · refine .inl (.beyond ?_ fun t ht x rest hx => ?_)
      · have hnil := h [] .none
        rw [List.append_nil] at hnil
        exact readBoundary_of_next_eq_nil hnil
      · rw [List.cons_append, readBoundary_of_next_eq_nil (h t ht)] at hx
        cases hx
  · refine .inl (.within (.assertion .wordBoundary) cs fun t ht => readBoundary_of_ne ?_)
    cases cs with
    | nil => cases ht <;> simp
    | cons c ds => simpa using hbrace

-- ---------------------------------------------------------------------------
-- Parts that are no operators
-- ---------------------------------------------------------------------------

theorem readEscape_boundary (cs : List Char) :
    readEscape flags ('b' :: cs) = readBoundary flags cs :=
  rfl

theorem suffix_of_readEscape {c : Char} {cs rest : List Char} {x : Primitive}
    (h : readEscape flags (c :: cs) = some (x, rest)) : rest <:+ cs := by
  by_cases hc : c = 'b'
  · subst hc
    exact leaves_readBoundary cs x rest h
  · exact (steady_readEscape hc).leaves cs x rest h

theorem readPrimitive_escape (cs : List Char) :
    readPrimitive flags ('\\' :: cs) = readEscape flags cs :=
  rfl

theorem readPrimitive_eq_yield {c : Char} (h : c ≠ '\\') (cs : List Char) :
    readPrimitive flags (c :: cs) = yield ((readPrimitive flags [c]).map (·.1)) cs := by
  rw [readPrimitive.eq_def, readPrimitive.eq_def]
  split <;> simp_all [yield]

theorem suffix_of_readPrimitive {c : Char} {cs rest : List Char} {x : Primitive}
    (h : readPrimitive flags (c :: cs) = some (x, rest)) : rest <:+ cs := by
  by_cases hc : c = '\\'
  · subst hc
    rw [readPrimitive_escape] at h
    cases cs with
    | nil => cases h
    | cons d cs => exact (suffix_of_readEscape h).trans (List.suffix_cons d cs)
  · rw [readPrimitive_eq_yield hc] at h
    exact Leaves.yield _ cs x rest h

/-- A part is read as it is without a tail, but for a word boundary with cut off braces. -/
theorem local_readPrimitive (c : Char) (cs : List Char) :
    Local 1 (fun ds => readPrimitive flags (c :: ds)) cs ∨
      ∃ more, c :: cs = '\\' :: 'b' :: more ∧ OpensAtEnd flags more := by
  by_cases hc : c = '\\'
  · subst hc
    cases cs with
    | nil =>
      refine .inl (.beyond rfl fun t _ x rest h => ?_)
      cases t with
      | nil => cases h
      | cons d ds => exact Nat.succ_le_succ (suffix_of_readEscape h).length_le
    | cons d cs =>
      by_cases hd : d = 'b'
      · subst hd
        exact (local_readBoundary cs).imp (fun h => h.congr fun _ _ => rfl) fun h => ⟨cs, rfl, h⟩
      · exact .inl (((steady_readEscape hd).near cs).congr fun _ _ => rfl)
  · exact .inl (((Steady.yield _).congr (readPrimitive_eq_yield hc)).near cs)

end PackageAlgebra.Pattern
