import PackageAlgebra.Pattern.Basic
import PackageAlgebra.Pattern.Simplify

/-!
# What a pattern matches

The places that the matcher finds are those to which there is a match: a text
has finitely many places, so of any number of copies beyond these one takes up
nothing and can be left out or put in again.
-/

namespace PackageAlgebra.Pattern

-- ---------------------------------------------------------------------------
-- Steps one behind the other
-- ---------------------------------------------------------------------------

def Times (r : Nat → Nat → Prop) : Nat → Nat → Nat → Prop
  | 0, i, j => i = j
  | n + 1, i, j => ∃ k, r i k ∧ Times r n k j

section

variable {r : Nat → Nat → Prop} {i j k m n : Nat}

theorem Times.append (h : Times r m i k) (h' : Times r n k j) : Times r (m + n) i j := by
  induction m generalizing i with
  | zero =>
    cases h
    rwa [Nat.zero_add]
  | succ m ih =>
    obtain ⟨l, hl, hrest⟩ := h
    rw [Nat.succ_add]
    exact ⟨l, hl, ih hrest⟩

theorem Times.split (h : Times r (m + n) i j) : ∃ k, Times r m i k ∧ Times r n k j := by
  induction m generalizing i with
  | zero => exact ⟨i, rfl, by rwa [Nat.zero_add] at h⟩
  | succ m ih =>
    rw [Nat.succ_add] at h
    obtain ⟨l, hl, hrest⟩ := h
    obtain ⟨k, hm, hn⟩ := ih hrest
    exact ⟨k, ⟨l, hl, hm⟩, hn⟩

theorem Times.loop (h : r k k) (n : Nat) : Times r n k k := by
  induction n with
  | zero => rfl
  | succ n ih => exact ⟨k, h, ih⟩

theorem Times.exists_loop (hr : ∀ i j, r i j → i ≤ j) (h : Times r n i j) (hn : j < i + n) :
    ∃ k m m', n = m + 1 + m' ∧ Times r m i k ∧ r k k ∧ Times r m' k j := by
  induction n generalizing i with
  | zero =>
    cases h
    omega
  | succ n ih =>
    obtain ⟨k, hk, hrest⟩ := h
    have hle := hr i k hk
    by_cases hstays : k = i
    · subst hstays
      exact ⟨k, 0, n, by omega, rfl, hk, hrest⟩
    · obtain ⟨l, m, m', hsum, hbefore, hloop, hbehind⟩ := ih hrest (by omega)
      exact ⟨l, m + 1, m', by omega, ⟨k, hk, hbefore⟩, hloop, hbehind⟩

theorem Times.of_places (hr : ∀ i j, r i j → i ≤ j) (h : Times r m i j) (hm : j < i + m)
    (hn : j < i + n) : Times r n i j := by
  induction m using Nat.strongRecOn with
  | ind m ih =>
    obtain ⟨k, l, l', rfl, hbefore, hloop, hbehind⟩ := h.exists_loop hr hm
    by_cases hle : l + 1 + l' ≤ n
    · have hlonger := (hbefore.append (Times.loop hloop (n - l - l'))).append hbehind
      rwa [show l + (n - l - l') + l' = n by omega] at hlonger
    · exact ih (l + l') (by omega) (hbefore.append hbehind) (by omega)

theorem Times.le (hr : ∀ i j, r i j → i ≤ j) (h : Times r n i j) : i ≤ j := by
  induction n generalizing i with
  | zero => exact Nat.le_of_eq h
  | succ n ih =>
    obtain ⟨k, hk, hrest⟩ := h
    exact Nat.le_trans (hr i k hk) (ih hrest)

end

-- ---------------------------------------------------------------------------
-- Matches
-- ---------------------------------------------------------------------------

/-- The pattern matches the text from one place to another. -/
def Matches (text : Array Char) : Pattern → Nat → Nat → Prop
  | .empty, i, j => i = j
  | .literal chars, i, j =>
    j = i + chars.length ∧ ∀ k c, chars[k]? = some c → text[i + k]? = some c
  | .one set, i, j => j = i + 1 ∧ text[i]?.any set.mem
  | .assertion a, i, j => i = j ∧ holdsAt text a i
  | .group p, i, j => p.Matches text i j
  | .seq p q, i, j => ∃ k, p.Matches text i k ∧ q.Matches text k j
  | .alt p q, i, j => p.Matches text i j ∨ q.Matches text i j
  | .repeated p min max, i, j =>
    ∃ further, (∀ most ∈ max, further ≤ most - min) ∧ Times (p.Matches text) (min + further) i j

section

variable {text : Array Char} {i j : Nat}

theorem Matches.le : {p : Pattern} → {i j : Nat} → p.Matches text i j → i ≤ j
  | .empty, _, _, h => Nat.le_of_eq h
  | .literal _, _, _, h => h.1 ▸ Nat.le_add_right _ _
  | .one _, _, _, h => h.1 ▸ Nat.le_succ _
  | .assertion _, _, _, h => Nat.le_of_eq h.1
  | .group p, _, _, h => Matches.le (p := p) h
  | .seq _ _, _, _, ⟨_, hp, hq⟩ => Nat.le_trans hp.le hq.le
  | .alt _ _, _, _, .inl h => h.le
  | .alt _ _, _, _, .inr h => h.le
  | .repeated _ _ _, _, _, ⟨_, _, h⟩ => h.le fun _ _ => Matches.le

theorem lt_size_of_any {test : Char → Bool} (h : text[i]?.any test = true) : i < text.size := by
  obtain ⟨c, hc, -⟩ := (Option.any_eq_true _ _).mp h
  exact (Array.getElem?_eq_some_iff.mp hc).1

theorem Times.le_size {r : Nat → Nat → Prop} (hr : ∀ i j, r i j → i ≤ text.size → j ≤ text.size)
    {n : Nat} (h : Times r n i j) (hi : i ≤ text.size) : j ≤ text.size := by
  induction n generalizing i with
  | zero => exact h ▸ hi
  | succ n ih =>
    obtain ⟨k, hk, hrest⟩ := h
    exact ih hrest (hr i k hk hi)

theorem Matches.le_size {p : Pattern} (h : p.Matches text i j) (hi : i ≤ text.size) :
    j ≤ text.size := by
  induction p generalizing i j with
  | empty => exact h ▸ hi
  | literal chars =>
    obtain ⟨rfl, hchars⟩ := h
    cases hlast : chars.getLast? with
    | none =>
      rw [List.getLast?_eq_none_iff.mp hlast]
      exact hi
    | some c =>
      rw [List.getLast?_eq_getElem?] at hlast
      have hlt := (Array.getElem?_eq_some_iff.mp (hchars _ c hlast)).1
      omega
  | one set =>
    obtain ⟨rfl, hset⟩ := h
    exact lt_size_of_any hset
  | assertion a => exact h.1 ▸ hi
  | group p ih => exact ih h hi
  | seq p q ihp ihq =>
    obtain ⟨k, hp, hq⟩ := h
    exact ihq hq (ihp hp hi)
  | alt p q ihp ihq => exact h.elim (ihp · hi) (ihq · hi)
  | repeated p min max ih =>
    obtain ⟨further, -, h⟩ := h
    exact h.le_size (fun _ _ => ih) hi

end

-- ---------------------------------------------------------------------------
-- The places that are found
-- ---------------------------------------------------------------------------

section

variable {text : Array Char} {places : List Nat} {i j : Nat}

theorem mem_mergePlaces {is js : List Nat} : i ∈ mergePlaces is js ↔ i ∈ is ∨ i ∈ js := by
  have hmergeAt {k : Nat} {merged : List Nat → List Nat} {is : List Nat}
      (hmerged : ∀ js, i ∈ merged js ↔ i ∈ is ∨ i ∈ js) (js : List Nat) :
      i ∈ mergeAt k merged js ↔ (i = k ∨ i ∈ is) ∨ i ∈ js := by
    induction js with
    | nil => simp [mergeAt, hmerged]
    | cons j js ih =>
      rw [mergeAt]
      split
      · simp only [List.mem_cons, hmerged]
        grind
      · split
        · simp only [List.mem_cons, ih]
          grind
        · obtain rfl : k = j := by omega
          simp only [List.mem_cons, hmerged]
          grind
  induction is generalizing js with
  | nil => simp [mergePlaces]
  | cons k is ih => rw [mergePlaces, hmergeAt (fun js => ih), List.mem_cons]

theorem mem_advance {test : Char → Bool} :
    j ∈ advance text test places ↔ ∃ i ∈ places, j = i + 1 ∧ text[i]?.any test = true := by
  simp only [advance, List.mem_map, List.mem_filter]
  grind

theorem any_beq_iff {found : Option Char} {c : Char} :
    found.any (· == c) = true ↔ found = some c := by
  cases found <;> simp

theorem matches_literal_cons {c : Char} {chars : List Char} :
    (Pattern.literal (c :: chars)).Matches text i j ↔
      text[i]?.any (· == c) = true ∧ (Pattern.literal chars).Matches text (i + 1) j := by
  simp only [Matches, List.length_cons]
  constructor
  · rintro ⟨rfl, h⟩
    refine ⟨any_beq_iff.mpr (h 0 c rfl), by omega, fun k d hd => ?_⟩
    rw [Nat.add_assoc, Nat.add_comm 1 k]
    exact h (k + 1) d hd
  · rintro ⟨hc, rfl, h⟩
    refine ⟨by omega, fun k d hd => ?_⟩
    cases k with
    | zero =>
      cases hd
      exact any_beq_iff.mp hc
    | succ k =>
      rw [Nat.add_comm k 1, ← Nat.add_assoc]
      exact h k d hd

theorem mem_literal {chars : List Char} :
    j ∈ chars.foldl (fun places c => advance text (· == c) places) places ↔
      ∃ i ∈ places, (Pattern.literal chars).Matches text i j := by
  induction chars generalizing places with
  | nil => simp [Matches]
  | cons c chars ih =>
    rw [List.foldl_cons, ih]
    constructor
    · rintro ⟨k, hk, hchars⟩
      obtain ⟨i, hi, rfl, hc⟩ := mem_advance.mp hk
      exact ⟨i, hi, matches_literal_cons.mpr ⟨hc, hchars⟩⟩
    · rintro ⟨i, hi, h⟩
      obtain ⟨hc, hchars⟩ := matches_literal_cons.mp h
      exact ⟨i + 1, mem_advance.mpr ⟨i, hi, rfl, hc⟩, hchars⟩

/-- The places to which a step leads are found from any places of the text. -/
def Finds (text : Array Char) (step : List Nat → List Nat) (r : Nat → Nat → Prop) : Prop :=
  ∀ places : List Nat, (∀ i ∈ places, i ≤ text.size) → ∀ j, j ∈ step places ↔ ∃ i ∈ places, r i j

variable {step : List Nat → List Nat} {r : Nat → Nat → Prop}

theorem Finds.le_size (hstep : Finds text step r)
    (hr : ∀ i j, r i j → i ≤ text.size → j ≤ text.size) (hplaces : ∀ i ∈ places, i ≤ text.size) :
    ∀ j ∈ step places, j ≤ text.size := by
  intro j hj
  obtain ⟨i, hi, hij⟩ := (hstep places hplaces j).mp hj
  exact hr i j hij (hplaces i hi)

theorem finds_iterate (hr : ∀ i j, r i j → i ≤ text.size → j ≤ text.size)
    (hstep : Finds text step r) (n : Nat) : Finds text (iterate step n) (Times r n) := by
  induction n with
  | zero =>
    intro places _ j
    simp [iterate, Times]
  | succ n ih =>
    intro places hplaces j
    have hone : (∃ i ∈ places, Times r (n + 1) i j) ↔ ∃ k ∈ step places, Times r n k j := by
      constructor
      · rintro ⟨i, hi, k, hik, hkj⟩
        exact ⟨k, (hstep places hplaces k).mpr ⟨i, hi, hik⟩, hkj⟩
      · rintro ⟨k, hk, hkj⟩
        obtain ⟨i, hi, hik⟩ := (hstep places hplaces k).mp hk
        exact ⟨i, hi, k, hik, hkj⟩
    rw [hone, iterate]
    split
    next hsame =>
      -- a step that changes nothing changes nothing ever after
      rw [hsame, ← ih places hplaces]
      clear ih hone
      induction n with
      | zero => rfl
      | succ n _ => rw [iterate, if_pos hsame]
    next => exact ih _ (hstep.le_size hr hplaces) j

-- ---------------------------------------------------------------------------
-- Any number of copies
-- ---------------------------------------------------------------------------

def Marked (seen : Array Bool) (i : Nat) : Prop :=
  seen.getD i false = true

theorem marked_mark (seen : Array Bool) (hplaces : ∀ i ∈ places, i < seen.size) :
    Marked (mark seen places) j ↔ Marked seen j ∨ j ∈ places := by
  induction places generalizing seen with
  | nil => simp [mark]
  | cons i places ih =>
    have hi : i < seen.size := hplaces i (by simp)
    have hset : Marked (seen.setIfInBounds i true) j ↔ Marked seen j ∨ j = i := by
      by_cases h : j = i
      · subst h
        simp [Marked, hi]
      · simp [Marked, h, Array.getElem?_setIfInBounds_ne (Ne.symm h), Array.getD_eq_getD_getElem?]
    have hrest := ih (seen.setIfInBounds i true) fun k hk => by
      rw [Array.size_setIfInBounds]
      exact hplaces k (List.mem_cons_of_mem _ hk)
    rw [mark] at hrest ⊢
    rw [List.foldl_cons, hrest, hset, List.mem_cons, or_assoc]

theorem size_mark (seen : Array Bool) : (mark seen places).size = seen.size := by
  induction places generalizing seen with
  | nil => rfl
  | cons i places ih =>
    rw [mark, List.foldl_cons, ← mark, ih, Array.size_setIfInBounds]

theorem le_size_of_marked {seen : Array Bool} (hsize : seen.size = text.size + 1)
    (h : Marked seen i) : i ≤ text.size := by
  refine Nat.not_lt.mp fun hlt => ?_
  have hnone : seen[i]? = none := Array.getElem?_eq_none (by omega)
  rw [Marked, Array.getD_eq_getD_getElem?, hnone] at h
  cases h

/-- The places found last are marked, and only they may lead to places that are not. -/
structure IsFrontier (text : Array Char) (r : Nat → Nat → Prop) (places : List Nat)
    (seen : Array Bool) : Prop where
  size : seen.size = text.size + 1
  marked : ∀ i ∈ places, Marked seen i
  closed : ∀ i, Marked seen i → i ∉ places → ∀ j, r i j → Marked seen j

/-- The places to which a step leads for the first time. -/
def found (step : List Nat → List Nat) (places : List Nat) (seen : Array Bool) : List Nat :=
  (step places).filter fun i => !seen.getD i false

theorem spread_succ (n : Nat) (places : List Nat) (seen : Array Bool) :
    spread step (n + 1) places seen =
      if (found step places seen).isEmpty then seen
      else spread step n (found step places seen) (mark seen (found step places seen)) :=
  rfl

theorem mem_found {seen : Array Bool} :
    i ∈ found step places seen ↔ i ∈ step places ∧ ¬Marked seen i := by
  simp [found, Marked]

namespace IsFrontier

variable {seen : Array Bool}

theorem le_size (h : IsFrontier text r places seen) : ∀ i ∈ places, i ≤ text.size :=
  fun i hi => le_size_of_marked h.size (h.marked i hi)

theorem marked_or_found (h : IsFrontier text r places seen) (hstep : Finds text step r)
    (hi : Marked seen i) (hij : r i j) : Marked seen j ∨ j ∈ found step places seen := by
  by_cases hmem : i ∈ places
  · by_cases hj : Marked seen j
    · exact .inl hj
    · exact .inr (mem_found.mpr ⟨(hstep places h.le_size j).mpr ⟨i, hmem, hij⟩, hj⟩)
  · exact .inl (h.closed i hi hmem j hij)

theorem marked_mark_found (h : IsFrontier text r places seen) (hstep : Finds text step r)
    (hr : ∀ i j, r i j → i ≤ text.size → j ≤ text.size) :
    Marked (mark seen (found step places seen)) j ↔
      Marked seen j ∨ j ∈ found step places seen :=
  marked_mark seen fun k hk => by
    have hle := hstep.le_size hr h.le_size k (mem_found.mp hk).1
    have hsize := h.size
    omega

theorem next (h : IsFrontier text r places seen) (hstep : Finds text step r)
    (hr : ∀ i j, r i j → i ≤ text.size → j ≤ text.size) :
    IsFrontier text r (found step places seen) (mark seen (found step places seen)) where
  size := (size_mark seen).trans h.size
  marked := fun _ hi => (h.marked_mark_found hstep hr).mpr (.inr hi)
  closed := fun _ hi hnew _ hij =>
    have hold := ((h.marked_mark_found hstep hr).mp hi).resolve_right hnew
    (h.marked_mark_found hstep hr).mpr (h.marked_or_found hstep hold hij)

theorem marked_of_times (h : IsFrontier text r places seen) (hstep : Finds text step r)
    (hnone : found step places seen = []) {m : Nat} (hi : Marked seen i)
    (htimes : Times r m i j) : Marked seen j := by
  induction m generalizing i with
  | zero => exact htimes ▸ hi
  | succ m ih =>
    obtain ⟨k, hik, hkj⟩ := htimes
    have hfollows := h.marked_or_found hstep hi hik
    rw [hnone] at hfollows
    exact ih (hfollows.resolve_right List.not_mem_nil) hkj

/-- What is marked in the end are the places to which some of the steps lead. -/
theorem marked_spread (h : IsFrontier text r places seen) (hstep : Finds text step r)
    (hr : ∀ i j, r i j → i ≤ text.size → j ≤ text.size) (n : Nat) :
    Marked (spread step n places seen) j ↔ ∃ i, Marked seen i ∧ ∃ m ≤ n, Times r m i j := by
  induction n generalizing places seen with
  | zero => simp [spread, Times]
  | succ n ih =>
    rw [spread_succ]
    split
    next hempty =>
      have hnone := List.isEmpty_iff.mp hempty
      constructor
      · exact fun hj => ⟨j, hj, 0, Nat.zero_le _, rfl⟩
      · rintro ⟨i, hi, m, -, htimes⟩
        exact h.marked_of_times hstep hnone hi htimes
    next =>
      have hmark {k : Nat} := h.marked_mark_found (j := k) hstep hr
      rw [ih (h.next hstep hr)]
      constructor
      · rintro ⟨i, hi, m, hm, htimes⟩
        rcases hmark.mp hi with hi | hi
        · exact ⟨i, hi, m, by omega, htimes⟩
        · obtain ⟨k, hk, hki⟩ := (hstep places h.le_size i).mp (mem_found.mp hi).1
          exact ⟨k, h.marked k hk, m + 1, by omega, i, hki, htimes⟩
      · rintro ⟨i, hi, m, hm, htimes⟩
        cases m with
        | zero => exact ⟨i, hmark.mpr (.inl hi), 0, Nat.zero_le _, htimes⟩
        | succ m =>
          obtain ⟨k, hik, hkj⟩ := htimes
          exact ⟨k, hmark.mpr (h.marked_or_found hstep hi hik), m, by omega, hkj⟩

end IsFrontier

theorem times_bounded_iff {min : Nat} {max : Option Nat} {bound : Nat} (hr : ∀ i j, r i j → i ≤ j)
    (hj : j < bound) :
    (∃ further, (∀ most ∈ max, further ≤ most - min) ∧ Times r (min + further) i j) ↔
      ∃ m ≤ max.elim bound (fun max => Nat.min (max - min) bound),
        Times r (Nat.min min bound + m) i j := by
  have hplaces {m n : Nat} (h : Times r m i j) (hm : bound ≤ m) (hn : bound ≤ n) : Times r n i j :=
    h.of_places hr (by omega) (by omega)
  rcases Nat.le_total min bound with hmin | hmin
  · rw [show Nat.min min bound = min from Nat.min_eq_left hmin]
    constructor
    · rintro ⟨further, hmax, h⟩
      rcases Nat.le_total further bound with hle | hle
      · refine ⟨further, ?_, h⟩
        cases max with
        | none => exact hle
        | some most => exact Nat.le_min.mpr ⟨hmax most rfl, hle⟩
      · refine ⟨bound, ?_, hplaces h (by omega) (by omega)⟩
        cases max with
        | none => exact Nat.le_refl _
        | some most => exact Nat.le_min.mpr ⟨Nat.le_trans hle (hmax most rfl), Nat.le_refl _⟩
    · rintro ⟨m, hm, h⟩
      refine ⟨m, fun most hmost => ?_, h⟩
      cases hmost
      exact Nat.le_trans hm (Nat.min_le_left _ _)
  · rw [show Nat.min min bound = bound from Nat.min_eq_right hmin]
    constructor
    · rintro ⟨further, -, h⟩
      exact ⟨0, Nat.zero_le _, hplaces h (by omega) (by omega)⟩
    · rintro ⟨m, -, h⟩
      exact ⟨0, fun _ _ => Nat.zero_le _, hplaces h (by omega) (by omega)⟩

theorem marked_copies (hstep : Finds text step r)
    (hr : ∀ i j, r i j → i ≤ text.size → j ≤ text.size) (hplaces : ∀ i ∈ places, i ≤ text.size)
    (n further : Nat) :
    Marked (spread step further (iterate step n places)
        (mark (Array.replicate (text.size + 1) false) (iterate step n places))) j ↔
      ∃ i ∈ places, ∃ m ≤ further, Times r (n + m) i j := by
  have hneeded := finds_iterate hr hstep n places hplaces
  have hsize : ∀ k ∈ iterate step n places, k < (Array.replicate (text.size + 1) false).size := by
    intro k hk
    obtain ⟨i, hi, hik⟩ := (hneeded k).mp hk
    rw [Array.size_replicate]
    exact Nat.lt_succ_of_le (hik.le_size hr (hplaces i hi))
  have hmark {k : Nat} : Marked (mark (Array.replicate (text.size + 1) false)
      (iterate step n places)) k ↔ k ∈ iterate step n places := by
    have hnone : ¬Marked (Array.replicate (text.size + 1) false) k := by
      simp only [Marked, Array.getD_eq_getD_getElem?, Array.getElem?_replicate]
      split <;> simp
    rw [marked_mark _ hsize, or_iff_right hnone]
  have hfrontier : IsFrontier text r (iterate step n places)
      (mark (Array.replicate (text.size + 1) false) (iterate step n places)) :=
    ⟨(size_mark _).trans Array.size_replicate, fun k => hmark.mpr,
      fun k hk hnot => absurd (hmark.mp hk) hnot⟩
  rw [hfrontier.marked_spread hstep hr]
  simp only [hmark, hneeded]
  constructor
  · rintro ⟨k, ⟨i, hi, hik⟩, m, hm, hkj⟩
    exact ⟨i, hi, m, hm, hik.append hkj⟩
  · rintro ⟨i, hi, m, hm, h⟩
    obtain ⟨k, hik, hkj⟩ := h.split
    exact ⟨k, ⟨i, hi, hik⟩, m, hm, hkj⟩

/-- The matcher finds the places to which there is a match. -/
theorem finds_reach (p : Pattern) : Finds text (p.reach text) (p.Matches text) := by
  induction p with
  | empty =>
    intro places _ j
    simp [reach, Matches]
  | literal chars => exact fun places _ j => mem_literal
  | one set =>
    intro places _ j
    rw [reach, mem_advance]
    rfl
  | assertion a =>
    intro places _ j
    simp only [reach, Matches, List.mem_filter]
    grind
  | group p ih => exact ih
  | seq p q ihp ihq =>
    intro places hplaces j
    have hle := ihp.le_size (fun _ _ h => h.le_size) hplaces
    rw [reach, ihq _ hle]
    simp only [ihp places hplaces, Matches]
    grind
  | alt p q ihp ihq =>
    intro places hplaces j
    rw [reach, mem_mergePlaces, ihp places hplaces, ihq places hplaces]
    simp only [Matches]
    grind
  | repeated p min max ih =>
    intro places hplaces j
    have hsize : ∀ i j, p.Matches text i j → i ≤ text.size → j ≤ text.size :=
      fun _ _ h => h.le_size
    have hcopies := marked_copies (j := j) ih hsize hplaces (Nat.min min (text.size + 1))
      (max.elim (text.size + 1) fun max => Nat.min (max - min) (text.size + 1))
    rw [Marked] at hcopies
    simp only [reach, List.mem_filter, List.mem_range, hcopies, Matches]
    constructor
    · rintro ⟨hj, i, hi, h⟩
      exact ⟨i, hi, (times_bounded_iff (fun _ _ => Matches.le) hj).mpr h⟩
    · rintro ⟨i, hi, h⟩
      have hj : j < text.size + 1 := by
        obtain ⟨further, -, htimes⟩ := h
        exact Nat.lt_succ_of_le (htimes.le_size hsize (hplaces i hi))
      exact ⟨hj, i, hi, (times_bounded_iff (fun _ _ => Matches.le) hj).mp h⟩

end

-- ---------------------------------------------------------------------------
-- Patterns put together
-- ---------------------------------------------------------------------------

variable {text : Array Char}

def reachAll (text : Array Char) (ps : List Pattern) (places : List Nat) : List Nat :=
  ps.foldl (fun places p => p.reach text places) places

theorem reachAll_cons (p : Pattern) (ps : List Pattern) (places : List Nat) :
    reachAll text (p :: ps) places = reachAll text ps (p.reach text places) :=
  rfl

theorem reachAll_append (ps qs : List Pattern) (places : List Nat) :
    reachAll text (ps ++ qs) places = reachAll text qs (reachAll text ps places) :=
  List.foldl_append

theorem reachAll_items (p : Pattern) (places : List Nat) :
    reachAll text p.items places = p.reach text places := by
  induction p generalizing places with
  | seq p q ihp ihq => rw [items, reachAll_append, ihp, ihq, reach]
  | _ => rfl

theorem reach_literal_append (front behind : List Char) (places : List Nat) :
    (Pattern.literal (front ++ behind)).reach text places =
      (Pattern.literal behind).reach text ((Pattern.literal front).reach text places) :=
  List.foldl_append

theorem reachAll_joinLiterals (ps : List Pattern) (places : List Nat) :
    reachAll text (joinLiterals ps) places = reachAll text ps places := by
  induction ps generalizing places with
  | nil => rfl
  | cons p ps ih =>
    rw [joinLiterals.eq_def]
    split
    · contradiction
    next front ps' heq =>
      cases heq
      rw [reachAll_cons, ← ih]
      split
      next behind more hjoined => rw [hjoined, reachAll_cons, reachAll_cons, reach_literal_append]
      next => rfl
    next p' ps' _ heq =>
      cases heq
      rw [reachAll_cons, reachAll_cons, ih]

theorem reach_inSequence (ps : List Pattern) (places : List Nat) :
    (inSequence ps).reach text places = reachAll text ps places := by
  induction ps generalizing places with
  | nil => rfl
  | cons p ps ih =>
    cases ps with
    | nil => rfl
    | cons q qs =>
      change (inSequence (q :: qs)).reach text (p.reach text places) = _
      exact ih _

theorem reach_sequence (ps : List Pattern) (places : List Nat) :
    (sequence ps).reach text places = reachAll text ps places := by
  rw [sequence, reach_inSequence, reachAll_joinLiterals]
  induction ps generalizing places with
  | nil => rfl
  | cons p ps ih => rw [List.flatMap_cons, reachAll_append, reachAll_items, ih, reachAll_cons]

-- ---------------------------------------------------------------------------
-- From end to end
-- ---------------------------------------------------------------------------

theorem holdsAt_textStart_iff {i : Nat} (hi : i ≤ text.size) :
    holdsAt text .textStart i = true ↔ i = 0 := by
  rw [holdsAt, Assertion.holds]
  split
  next h => simp [h]
  next h =>
    simp [h]
    omega

theorem holdsAt_textEnd_iff {i : Nat} : holdsAt text .textEnd i = true ↔ text.size ≤ i := by
  simp [holdsAt, Assertion.holds]

def betweenEnds (p : Pattern) : Pattern :=
  sequence [.assertion .textStart, p, .assertion .textEnd]

theorem search_betweenEnds (p : Pattern) (text : List Char) :
    (betweenEnds p).search text = true ↔ p.Matches text.toArray 0 text.length := by
  have hsize : text.toArray.size = text.length := rfl
  have hplaces : ∀ i ∈ (List.range (text.length + 1)).filter (holdsAt text.toArray .textStart),
      i ≤ text.toArray.size := by
    intro i hi
    have hlt := List.mem_range.mp (List.mem_filter.mp hi).1
    omega
  have hfound : (betweenEnds p).search text = true ↔ ∃ j, text.length ≤ j ∧
      ∃ i ≤ text.length, i = 0 ∧ p.Matches text.toArray i j := by
    have hreach : (betweenEnds p).reach text.toArray (List.range (text.length + 1)) =
        (p.reach text.toArray ((List.range (text.length + 1)).filter
          (holdsAt text.toArray .textStart))).filter (holdsAt text.toArray .textEnd) :=
      reach_sequence _ _
    rw [search, hreach, Bool.not_eq_true', List.isEmpty_eq_false_iff_exists_mem]
    simp only [List.mem_filter, finds_reach p _ hplaces, holdsAt_textEnd_iff, List.mem_range]
    constructor
    · rintro ⟨j, ⟨i, ⟨hi, hstart⟩, h⟩, hj⟩
      have hle := Nat.le_of_lt_succ hi
      exact ⟨j, hj, i, hle, (holdsAt_textStart_iff hle).mp hstart, h⟩
    · rintro ⟨j, hj, i, hi, hstart, h⟩
      exact ⟨j, ⟨i, ⟨Nat.lt_succ_of_le hi, (holdsAt_textStart_iff hi).mpr hstart⟩, h⟩, hj⟩
  rw [hfound]
  constructor
  · rintro ⟨j, hj, i, hi, rfl, h⟩
    obtain rfl : j = text.length := Nat.le_antisymm (h.le_size (Nat.zero_le _)) hj
    exact h
  · exact fun h => ⟨text.length, Nat.le_refl _, 0, Nat.zero_le _, rfl, h⟩

end PackageAlgebra.Pattern
