import PackageAlgebra.Pattern.Primitive

/-!
# Readers and the end of the text

What a reader takes off the front of a text is the same if a closing bracket
stands behind the text, unless the reader comes to the end. Then a comment goes
on to the end, or the reader fails, and takes at least a part of the tail if it
does not fail with one.
-/

namespace PackageAlgebra.Pattern

/-- Takes something off the front of a text. -/
abbrev Take (α : Type) := List Char → Option (α × List Char)

variable {α β : Type}

/-- Takes one thing and then another one, which may depend on the first. -/
def Take.andThen (f : Take α) (g : α → Take β) : Take β :=
  fun cs => (f cs).bind fun p => g p.1 p.2

def yield (o : Option α) : Take α :=
  fun cs => o.map fun x => (x, cs)

def branchOn (k : Char) (behind other : Take α) : Take α
  | [] => other []
  | c :: cs => if c = k then behind cs else other (c :: cs)

theorem branchOn_cons (k : Char) (behind other : Take α) (cs : List Char) :
    branchOn k behind other (k :: cs) = behind cs :=
  if_pos rfl

theorem branchOn_of_ne {k : Char} {cs : List Char} (behind other : Take α)
    (h : ∀ ds, cs = k :: ds → False) : branchOn k behind other cs = other cs := by
  cases cs with
  | nil => rfl
  | cons c cs => exact if_neg fun hc => h cs (by rw [hc])

def branchOnTwo (k : Char) (behind other : Take α) : Take α
  | c :: d :: cs => if c = k ∧ d = k then behind cs else other (c :: d :: cs)
  | cs => other cs

theorem branchOnTwo_cons (k : Char) (behind other : Take α) (cs : List Char) :
    branchOnTwo k behind other (k :: k :: cs) = behind cs :=
  if_pos ⟨rfl, rfl⟩

theorem branchOnTwo_of_ne {k : Char} {cs : List Char} (behind other : Take α)
    (h : ∀ ds, cs = k :: k :: ds → False) : branchOnTwo k behind other cs = other cs := by
  rcases cs with _ | ⟨c, _ | ⟨d, cs⟩⟩
  · rfl
  · rfl
  · exact if_neg fun hc => h cs (by rw [hc.1, hc.2])

theorem Take.andThen_congr {f : Take α} {g g' : α → Take β} {cs : List Char}
    (h : ∀ x rest, f cs = some (x, rest) → g x rest = g' x rest) :
    Take.andThen f g cs = Take.andThen f g' cs :=
  Option.bind_congr fun p hp => h p.1 p.2 hp

theorem branchOn_congr {k : Char} {behind behind' other other' : Take α} {cs : List Char}
    (hbehind : ∀ ds, cs = k :: ds → behind ds = behind' ds) (hother : other cs = other' cs) :
    branchOn k behind other cs = branchOn k behind' other' cs := by
  cases cs with
  | nil => exact hother
  | cons c cs =>
    rw [branchOn, branchOn, hother]
    split
    next hc => exact hbehind cs (by rw [hc])
    next => rfl

theorem branchOnTwo_congr {k : Char} {behind behind' other other' : Take α} {cs : List Char}
    (hbehind : ∀ ds, cs = k :: k :: ds → behind ds = behind' ds) (hother : other cs = other' cs) :
    branchOnTwo k behind other cs = branchOnTwo k behind' other' cs := by
  rcases cs with _ | ⟨c, _ | ⟨d, cs⟩⟩
  · exact hother
  · exact hother
  · rw [branchOnTwo, branchOnTwo, hother]
    split
    next hc => exact hbehind cs (by rw [hc.1, hc.2])
    next => rfl

/-- What may stand behind a text: a closing bracket and a dollar sign, or less of them. -/
inductive IsTail : List Char → Prop
  | none : IsTail []
  | bracket : IsTail [')']
  | whole : IsTail [')', '$']

/-- How a reader takes to a text with a tail: it takes the same and leaves the tail, or it takes the
tail as part of a comment, or it fails on the text by itself. In the last case it takes so many
characters of the tail at least, if it does not fail. -/
inductive Local (taken : Nat) (f : Take α) (cs : List Char) : Prop
  | within (x : α) (rest : List Char) (h : ∀ t, IsTail t → f (cs ++ t) = some (x, rest ++ t))
  | comment (x : α) (h : ∀ t, IsTail t → f (cs ++ t) = some (x, []))
  | beyond (hnone : f cs = none)
      (h : ∀ t, IsTail t → ∀ x rest, f (cs ++ t) = some (x, rest) → rest.length + taken ≤ t.length)

def Leaves (f : Take α) : Prop :=
  ∀ cs x rest, f cs = some (x, rest) → rest <:+ cs

def Consumes (f : Take α) : Prop :=
  ∀ cs x rest, f cs = some (x, rest) → rest.length + 1 ≤ cs.length

/-- A reader that does the same whether there is a tail or not. -/
structure Steady (taken : Nat) (f : Take α) : Prop where
  leaves : Leaves f
  near : ∀ cs, Local taken f cs

structure Headed (f : Take α) : Prop where
  fails : f [] = none
  behind : ∀ c, Steady 1 fun cs => f (c :: cs)

/-- A reader that leaves the tail as it is, and fails where it fails without one. -/
def Exact (f : Take α) : Prop :=
  ∀ cs t, IsTail t → f (cs ++ t) = (f cs).map fun p => (p.1, p.2 ++ t)

variable {f f' : Take α} {g : α → Take β} {cs : List Char} {taken : Nat}

theorem Leaves.yield (o : Option α) : Leaves (yield o) := by
  intro cs x rest h
  obtain ⟨y, -, heq⟩ := Option.map_eq_some_iff.mp h
  cases heq
  exact List.suffix_rfl

theorem Leaves.andThen (hf : Leaves f) (hg : ∀ x, Leaves (g x)) : Leaves (Take.andThen f g) := by
  intro cs y rest' h
  obtain ⟨⟨x, rest⟩, hx, hy⟩ := Option.bind_eq_some_iff.mp h
  exact (hg x _ _ _ hy).trans (hf _ _ _ hx)

theorem Leaves.branchOn {k : Char} {behind other : Take α} (hbehind : Leaves behind)
    (hother : Leaves other) : Leaves (branchOn k behind other) := by
  intro cs x rest h
  cases cs with
  | nil => exact hother _ _ _ h
  | cons c cs =>
    rw [Pattern.branchOn] at h
    split at h
    · exact (hbehind _ _ _ h).trans (List.suffix_cons c cs)
    · exact hother _ _ _ h

theorem Leaves.branchOnTwo {k : Char} {behind other : Take α} (hbehind : Leaves behind)
    (hother : Leaves other) : Leaves (branchOnTwo k behind other) := by
  intro cs x rest h
  rcases cs with _ | ⟨c, _ | ⟨d, cs⟩⟩
  · exact hother _ _ _ h
  · exact hother _ _ _ h
  · rw [Pattern.branchOnTwo] at h
    split at h
    · exact (hbehind _ _ _ h).trans ((List.suffix_cons d cs).trans (List.suffix_cons c _))
    · exact hother _ _ _ h

theorem Exact.branchOn {k : Char} {behind other : Take α} (hk : k ≠ ')') (hbehind : Exact behind)
    (hother : Exact other) : Exact (branchOn k behind other) := by
  intro cs t ht
  cases cs with
  | nil =>
    rw [List.nil_append, branchOn_of_ne]
    · exact hother [] t ht
    · rintro ds rfl
      cases ht <;> exact hk rfl
  | cons c cs =>
    by_cases hc : c = k
    · rw [hc, List.cons_append, branchOn_cons, branchOn_cons, hbehind cs t ht]
    · rw [List.cons_append, branchOn_of_ne _ _ fun ds heq => hc (List.cons.inj heq).1,
        branchOn_of_ne _ _ fun ds heq => hc (List.cons.inj heq).1]
      exact hother (c :: cs) t ht

-- ---------------------------------------------------------------------------
-- One text
-- ---------------------------------------------------------------------------

namespace Local

theorem congr {cs' : List Char} (hf : Local taken f cs)
    (h : ∀ t, IsTail t → f' (cs' ++ t) = f (cs ++ t)) : Local taken f' cs' := by
  cases hf with
  | within x rest hin => exact .within x rest fun t ht => by rw [h t ht, hin t ht]
  | comment x hin => exact .comment x fun t ht => by rw [h t ht, hin t ht]
  | beyond hnone hin =>
    refine .beyond ?_ fun t ht x rest hx => hin t ht x rest (by rw [← h t ht, hx])
    have hcs := h [] .none
    rw [List.append_nil, List.append_nil] at hcs
    rw [hcs, hnone]

theorem weaken (h : Local 1 f cs) : Local 0 f cs := by
  cases h with
  | within x rest h => exact .within x rest h
  | comment x h => exact .comment x h
  | beyond hnone h => exact .beyond hnone fun t ht x rest hx => Nat.le_of_succ_le (h t ht x rest hx)

theorem andThen {n : Nat} (hf : Local taken f cs) (hleaves : ∀ x, Leaves (g x))
    (hshorter : ∀ x ds y rest, g x ds = some (y, rest) → rest.length + n ≤ ds.length)
    (hg : ∀ x rest, f cs = some (x, rest) → Local (taken + n) (g x) rest) :
    Local (taken + n) (Take.andThen f g) cs := by
  cases hf with
  | within x rest h =>
    have hx : f cs = some (x, rest) := by simpa using h [] .none
    have hboth (t : List Char) (ht : IsTail t) :
        Take.andThen f g (cs ++ t) = g x (rest ++ t) := by
      rw [Take.andThen, h t ht]
      rfl
    cases hg x rest hx with
    | within y rest' h' => exact .within y rest' fun t ht => (hboth t ht).trans (h' t ht)
    | comment y h' => exact .comment y fun t ht => (hboth t ht).trans (h' t ht)
    | beyond hnone h' =>
      refine .beyond (by rw [Take.andThen, hx]; exact hnone) fun t ht y rest' hy =>
        h' t ht y rest' ?_
      rwa [hboth t ht] at hy
  | comment x h =>
    have hx : f cs = some (x, []) := by simpa using h [] .none
    cases hy : g x [] with
    | none =>
      refine .beyond (by rw [Take.andThen, hx]; exact hy) fun t ht y rest' hy' => ?_
      rw [Take.andThen, h t ht, Option.bind_some, hy] at hy'
      cases hy'
    | some p =>
      have hempty : p.2 = [] := List.suffix_nil.mp (hleaves x [] p.1 p.2 hy)
      refine .comment p.1 fun t ht => ?_
      rw [Take.andThen, h t ht, Option.bind_some, hy, ← hempty]
  | beyond hnone h =>
    refine .beyond (by rw [Take.andThen, hnone]; rfl) fun t ht y rest' hy => ?_
    obtain ⟨⟨x, rest⟩, hx, hy⟩ := Option.bind_eq_some_iff.mp hy
    have hfirst := h t ht x rest hx
    have hsecond := hshorter x rest y rest' hy
    omega

theorem of_append (h : ∀ t, IsTail t → f (cs ++ t) = (f cs).map fun p => (p.1, p.2 ++ t)) :
    Local taken f cs := by
  cases hf : f cs with
  | none =>
    refine .beyond hf fun t ht x rest hx => ?_
    rw [h t ht, hf] at hx
    cases hx
  | some p => exact .within p.1 p.2 fun t ht => by rw [h t ht, hf]; rfl

end Local

-- ---------------------------------------------------------------------------
-- All texts
-- ---------------------------------------------------------------------------

namespace Steady

theorem congr (hf : Steady taken f) (h : ∀ cs, f' cs = f cs) : Steady taken f' := by
  obtain rfl : f' = f := funext h
  exact hf

theorem weaken (h : Steady 1 f) : Steady 0 f :=
  ⟨h.leaves, fun cs => (h.near cs).weaken⟩

theorem yield (o : Option α) : Steady taken (yield o) := by
  refine ⟨.yield o, fun cs => .of_append fun t _ => ?_⟩
  cases o <;> rfl

theorem of_exact (hf : Exact f) (hleaves : Leaves f) : Steady taken f :=
  ⟨hleaves, fun cs => .of_append (hf cs)⟩

theorem some (x : α) : Steady taken fun cs => Option.some (x, cs) :=
  yield (.some x)

theorem none : Steady taken fun _ => (Option.none : Option (α × List Char)) :=
  yield .none

theorem andThen (hf : Steady taken f) (hg : ∀ x, Steady taken (g x)) :
    Steady taken (Take.andThen f g) := by
  refine ⟨hf.leaves.andThen fun x => (hg x).leaves, fun cs => ?_⟩
  exact (hf.near cs).andThen (n := 0) (fun x => (hg x).leaves)
    (fun x ds y rest h => ((hg x).leaves ds y rest h).length_le) fun x rest _ => (hg x).near rest

theorem branchOn {k : Char} {behind other : Take α} (hk : k ≠ ')') (hbehind : Steady taken behind)
    (hother : Steady taken other) : Steady taken (branchOn k behind other) := by
  refine ⟨hbehind.leaves.branchOn hother.leaves, fun cs => ?_⟩
  · cases cs with
    | nil =>
      refine (hother.near []).congr fun t ht => branchOn_of_ne _ _ fun ds heq => ?_
      cases ht with
      | none => cases heq
      | bracket | whole => exact hk (List.cons.inj heq).1.symm
    | cons c cs =>
      by_cases hc : c = k
      · exact (hbehind.near cs).congr fun t _ => if_pos hc
      · exact (hother.near (c :: cs)).congr fun t _ => if_neg hc

theorem branchOnTwo {k : Char} {behind other : Take α} (hk : k ≠ ')')
    (hbehind : Steady taken behind) (hother : Steady taken other) :
    Steady taken (branchOnTwo k behind other) := by
  refine ⟨hbehind.leaves.branchOnTwo hother.leaves, fun cs => ?_⟩
  · rcases cs with _ | ⟨c, _ | ⟨d, cs⟩⟩
    · refine (hother.near []).congr fun t ht => branchOnTwo_of_ne _ _ fun ds heq => ?_
      cases ht with
      | none => cases heq
      | bracket | whole => exact hk (List.cons.inj heq).1.symm
    · refine (hother.near [c]).congr fun t ht => branchOnTwo_of_ne _ _ fun ds heq => ?_
      cases ht with
      | none => cases heq
      | bracket | whole => exact hk (List.cons.inj (List.cons.inj heq).2).1.symm
    · by_cases hc : c = k ∧ d = k
      · exact (hbehind.near cs).congr fun t _ => if_pos hc
      · exact (hother.near (c :: d :: cs)).congr fun t _ => if_neg hc

theorem map (hf : Steady taken f) (h : α → β) :
    Steady taken fun cs => (f cs).map fun p => (h p.1, p.2) :=
  (hf.andThen fun x => some (h x)).congr fun _ => Option.map_eq_bind

theorem of_fuel {f : Nat → Take α} (size : List Char → Nat) (hf : ∀ n, Steady taken (f n))
    (hfuel : ∀ n cs, size cs ≤ n → f n cs = f (size cs) cs) :
    Steady taken fun cs => f (size cs) cs := by
  refine ⟨fun cs => (hf (size cs)).leaves cs, fun cs => ?_⟩
  let fuel := size (cs ++ []) + size (cs ++ [')']) + size (cs ++ [')', '$'])
  refine ((hf fuel).near cs).congr fun t ht => (hfuel fuel _ ?_).symm
  cases ht <;> omega

end Steady

namespace Headed

theorem exists_cons (h : Headed f) {x : α} {rest : List Char} (hf : f cs = some (x, rest)) :
    ∃ c ds, cs = c :: ds ∧ rest <:+ ds := by
  cases cs with
  | nil =>
    rw [h.fails] at hf
    cases hf
  | cons c ds => exact ⟨c, ds, rfl, (h.behind c).leaves ds x rest hf⟩

theorem steady (h : Headed f) : Steady 1 f := by
  refine ⟨fun cs x rest hf => ?_, fun cs => ?_⟩
  · obtain ⟨c, ds, rfl, hrest⟩ := h.exists_cons hf
    exact hrest.trans (List.suffix_cons c ds)
  · cases cs with
    | nil =>
      refine .beyond h.fails fun t _ x rest hf => ?_
      obtain ⟨c, ds, rfl, hrest⟩ := h.exists_cons hf
      exact Nat.succ_le_succ hrest.length_le
    | cons c cs =>
      cases (h.behind c).near cs with
      | within x rest hin => exact .within x rest hin
      | comment x hin => exact .comment x hin
      | beyond hnone hin => exact .beyond hnone hin

theorem andThen (hf : Headed f) (hg : ∀ x, Steady 1 (g x)) : Headed (Take.andThen f g) :=
  ⟨by rw [Take.andThen, hf.fails]; rfl, fun c => ((hf.behind c).andThen hg).congr fun _ => rfl⟩

theorem of_fuel {f : Nat → Take α} (size : List Char → Nat) (hf : ∀ n, Headed (f n))
    (hfuel : ∀ n cs, size cs ≤ n → f n cs = f (size cs) cs) : Headed fun cs => f (size cs) cs :=
  ⟨(hf _).fails, fun c => Steady.of_fuel (f := fun n cs => f n (c :: cs)) (fun cs => size (c :: cs))
    (fun n => (hf n).behind c) fun n cs => hfuel n (c :: cs)⟩

end Headed

theorem Headed.consumes (h : Headed f) : Consumes f := by
  intro cs x rest hf
  obtain ⟨c, ds, rfl, hrest⟩ := h.exists_cons hf
  exact Nat.succ_le_succ hrest.length_le

theorem Consumes.andThen (hf : Consumes f) (hg : ∀ x, Leaves (g x)) :
    Consumes (Take.andThen f g) := by
  intro cs y rest' h
  obtain ⟨⟨x, rest⟩, hx, hy⟩ := Option.bind_eq_some_iff.mp h
  exact Nat.le_trans (Nat.succ_le_succ (hg x _ _ _ hy).length_le) (hf _ _ _ hx)

theorem Consumes.branchOn {k : Char} {behind other : Take α} (hbehind : Leaves behind)
    (hother : Consumes other) : Consumes (branchOn k behind other) := by
  intro cs x rest h
  cases cs with
  | nil => exact hother _ _ _ h
  | cons c cs =>
    rw [Pattern.branchOn] at h
    split at h
    · exact Nat.succ_le_succ (hbehind _ _ _ h).length_le
    · exact hother _ _ _ h

theorem Consumes.branchOnTwo {k : Char} {behind other : Take α} (hbehind : Leaves behind)
    (hother : Consumes other) : Consumes (branchOnTwo k behind other) := by
  intro cs x rest h
  rcases cs with _ | ⟨c, _ | ⟨d, cs⟩⟩
  · exact hother _ _ _ h
  · exact hother _ _ _ h
  · rw [Pattern.branchOnTwo] at h
    split at h
    · exact Nat.succ_le_succ (Nat.le_succ_of_le (hbehind _ _ _ h).length_le)
    · exact hother _ _ _ h

theorem Steady.andThen_consumes (hf : Steady 0 f) (hg : ∀ x, Steady 1 (g x))
    (hconsumes : ∀ x, Consumes (g x)) : Steady 1 (Take.andThen f g) :=
  ⟨(hf.andThen fun x => (hg x).weaken).leaves, fun cs => (hf.near cs).andThen (n := 1)
    (fun x => (hg x).leaves) (fun x => hconsumes x) fun x rest _ => (hg x).near rest⟩

-- ---------------------------------------------------------------------------
-- Blanks and comments
-- ---------------------------------------------------------------------------

theorem skipBlanks_suffix (inComment : Bool) (cs : List Char) : skipBlanks inComment cs <:+ cs := by
  induction cs generalizing inComment with
  | nil => exact List.suffix_rfl
  | cons c cs ih =>
    rw [skipBlanks]
    split
    · exact (ih _).trans (List.suffix_cons c cs)
    · split
      · exact (ih _).trans (List.suffix_cons c cs)
      · split
        · exact (ih _).trans (List.suffix_cons c cs)
        · exact List.suffix_rfl

/-- Behind blanks and whole comments the tail is left, and in an open comment it is skipped too. -/
theorem skipBlanks_append (inComment : Bool) (cs : List Char) :
    (∀ t, IsTail t → skipBlanks inComment (cs ++ t) = skipBlanks inComment cs ++ t) ∨
      ∀ t, IsTail t → skipBlanks inComment (cs ++ t) = [] := by
  induction cs generalizing inComment with
  | nil =>
    cases inComment with
    | false =>
      left
      rintro t (_ | _ | _) <;> rfl
    | true =>
      right
      rintro t (_ | _ | _) <;> rfl
  | cons c cs ih =>
    simp only [List.cons_append, skipBlanks]
    split
    · exact ih _
    · split
      · exact ih _
      · split
        · exact ih _
        · exact .inl fun _ _ => rfl

namespace Flags

def skip (flags : Flags) : Take Unit :=
  fun cs => some ((), flags.next cs)

theorem next_suffix (flags : Flags) (cs : List Char) : flags.next cs <:+ cs := by
  rw [next]
  split
  · exact skipBlanks_suffix false cs
  · exact List.suffix_rfl

theorem next_append (flags : Flags) (cs : List Char) :
    (∀ t, IsTail t → flags.next (cs ++ t) = flags.next cs ++ t) ∨
      ∀ t, IsTail t → flags.next (cs ++ t) = [] := by
  simp only [next]
  split
  · exact skipBlanks_append false cs
  · exact .inl fun _ _ => rfl

theorem next_tail (flags : Flags) {t : List Char} (ht : IsTail t) : flags.next t = t := by
  rw [next]
  split
  · cases ht <;> rfl
  · rfl

theorem next_brace (flags : Flags) (cs : List Char) : flags.next ('\x7b' :: cs) = '\x7b' :: cs := by
  rw [next]
  split <;> rfl

theorem steady_skip (flags : Flags) : Steady taken flags.skip := by
  refine ⟨fun cs x rest h => ?_, fun cs => ?_⟩
  · cases h
    exact flags.next_suffix cs
  · rcases flags.next_append cs with h | h
    · exact .within () (flags.next cs) fun t ht => by rw [skip, h t ht]
    · exact .comment () fun t ht => by rw [skip, h t ht]

end Flags

theorem Steady.next (hf : Steady taken f) (flags : Flags) :
    Steady taken fun cs => f (flags.next cs) :=
  (flags.steady_skip.andThen fun _ => hf).congr fun _ => rfl

theorem Consumes.next (hf : Consumes f) (flags : Flags) :
    Consumes fun cs => f (flags.next cs) :=
  fun cs x rest h => Nat.le_trans (hf _ x rest h) (flags.next_suffix cs).length_le

end PackageAlgebra.Pattern
