import PackageAlgebra.Proofs.Package.Basic
import PackageAlgebra.Proofs.Query.Timeline
import PackageAlgebra.Query.Selection

/-!
# The best package of a set

As long as the keys agree the running best has the key of the first package, so
the first package that differs is noticed, and a package that is passed over
stays behind the running best because the order is transitive.
-/

namespace PackageAlgebra

open Std (TransCmp OrientedCmp ReflCmp)
open Package (compareTo key)

variable {P : Type} [Package P]

/-- No package of the set is better. -/
def IsMaximal (ps : List P) (p : P) : Prop :=
  p ∈ ps ∧ ∀ q ∈ ps, compareTo q p ≠ .gt

def IsLastMaximal (ps : List P) (p : P) : Prop :=
  ∃ before after, ps = before ++ p :: after ∧ IsMaximal ps p ∧ ∀ q ∈ after, ¬IsMaximal ps q

/-- What a sequence of items has for an answer when it is asked for the best. -/
inductive BestAnswer : List (Except Error P) → Except Error P → Prop
  | error (ps : List P) (e : Error) (rest : List (Except Error P)) :
      BestAnswer (ps.map .ok ++ .error e :: rest) (.error e)
  | empty : BestAnswer [] (.error (.set .empty .best))
  | ambiguous {ps : List P} {p q : P} : p ∈ ps → q ∈ ps → key p ≠ key q →
      BestAnswer (ps.map .ok) (.error (.set .ambiguous .best))
  | best {ps : List P} {p : P} : (∀ q ∈ ps, ∀ r ∈ ps, key q = key r) → IsLastMaximal ps p →
      BestAnswer (ps.map .ok) (.ok p)

-- ---------------------------------------------------------------------------
-- The running best
-- ---------------------------------------------------------------------------

/-- The running best divides what was read: nothing before it is better, all behind it is worse. -/
def DividesAt (ps : List P) (p : P) : Prop :=
  ∃ before after, ps = before ++ p :: after ∧ (∀ q ∈ before, (compareTo q p).isLE = true) ∧
    ∀ q ∈ after, compareTo q p = .lt

namespace DividesAt

theorem isLE {ps : List P} {p q : P} (h : DividesAt ps p) (hq : q ∈ ps) :
    (compareTo q p).isLE = true := by
  obtain ⟨before, after, rfl, hb, ha⟩ := h
  rcases List.mem_append.mp hq with hq | hq
  · exact hb q hq
  · rcases List.mem_cons.mp hq with rfl | hq
    · exact ReflCmp.isLE_rfl
    · exact Ordering.isLE_of_eq_lt (ha q hq)

theorem cons {ps : List P} {p c : P} (h : DividesAt ps p) (hc : (compareTo c p).isLE = true) :
    DividesAt (c :: ps) p := by
  obtain ⟨before, after, rfl, hb, ha⟩ := h
  refine ⟨c :: before, after, rfl, ?_, ha⟩
  intro q hq
  rcases List.mem_cons.mp hq with rfl | hq
  · exact hc
  · exact hb q hq

theorem insert {ps : List P} {p c q : P} (h : DividesAt (c :: ps) p) (hq : compareTo q c = .lt) :
    DividesAt (c :: q :: ps) p := by
  have hcp : (compareTo c p).isLE = true := h.isLE (by simp)
  have hqp : compareTo q p = .lt := TransCmp.lt_of_lt_of_isLE hq hcp
  obtain ⟨before, after, heq, hb, ha⟩ := h
  cases before with
  | nil =>
    simp only [List.nil_append, List.cons.injEq] at heq
    obtain ⟨rfl, rfl⟩ := heq
    refine ⟨[], q :: ps, rfl, by simp, ?_⟩
    intro r hr
    rcases List.mem_cons.mp hr with rfl | hr
    · exact hq
    · exact ha r hr
  | cons d before =>
    simp only [List.cons_append, List.cons.injEq] at heq
    obtain ⟨rfl, rfl⟩ := heq
    refine ⟨c :: q :: before, after, rfl, ?_, ha⟩
    intro r hr
    rcases List.mem_cons.mp hr with rfl | hr
    · exact hcp
    · rcases List.mem_cons.mp hr with rfl | hr
      · exact Ordering.isLE_of_eq_lt hqp
      · exact hb r (by simp [hr])

theorem isLastMaximal {ps : List P} {p : P} (h : DividesAt ps p) : IsLastMaximal ps p := by
  have hle : ∀ q ∈ ps, compareTo q p ≠ .gt := fun q hq hgt => by simpa [hgt] using h.isLE hq
  obtain ⟨before, after, rfl, -, ha⟩ := h
  refine ⟨before, after, rfl, ⟨by simp, hle⟩, ?_⟩
  intro q hq hmax
  exact hmax.2 p (by simp) (OrientedCmp.gt_of_lt (ha q hq))

end DividesAt

theorem dividesAt_bestFrom (current : P) (differs : Bool) (ps : List P) :
    DividesAt (current :: ps) (bestFrom current differs ps).1 := by
  induction ps generalizing current differs with
  | nil => exact ⟨[], [], rfl, by simp, by simp⟩
  | cons p ps ih =>
    rw [bestFrom, better]
    split
    · next hlt => exact (ih current _).insert hlt
    · next hge =>
      have h := ih p (differs || key current != key p)
      have hcp : (compareTo current p).isLE = true := Package.isLE_of_ne_lt hge
      exact h.cons (TransCmp.isLE_trans hcp (h.isLE List.mem_cons_self))

theorem key_better {p q : P} (h : key q = key p) : key (better p q) = key p := by
  rw [better]
  split
  · rfl
  · exact h

theorem differs_bestFrom (current : P) (differs : Bool) (ps : List P) :
    (bestFrom current differs ps).2 = (differs || ps.any fun p => key current != key p) := by
  induction ps generalizing current differs with
  | nil => simp [bestFrom]
  | cons p ps ih =>
    rw [bestFrom, ih, List.any_cons, ← Bool.or_assoc]
    by_cases hk : key current = key p
    · rw [key_better hk.symm]
    · have hne : (key current != key p) = true := by simpa using hk
      rw [hne, Bool.or_true, Bool.true_or, Bool.true_or]

/-- The flag of the pass is raised exactly if the keys are not all the same. -/
theorem differs_bestFrom_iff (p : P) (ps : List P) :
    (bestFrom p false ps).2 = true ↔ ∃ q ∈ p :: ps, ∃ r ∈ p :: ps, key q ≠ key r := by
  rw [differs_bestFrom, Bool.false_or, List.any_eq_true]
  constructor
  · rintro ⟨r, hr, hne⟩
    exact ⟨p, by simp, r, by simp [hr], by simpa using hne⟩
  · rintro ⟨q, hq, r, hr, hne⟩
    -- one of the two differs from the first package
    have hfirst : ∃ s ∈ p :: ps, key p ≠ key s := by
      by_cases hpq : key p = key q
      · exact ⟨r, hr, fun hpr => hne (hpq.symm.trans hpr)⟩
      · exact ⟨q, hq, hpq⟩
    obtain ⟨s, hs, hps⟩ := hfirst
    rcases List.mem_cons.mp hs with rfl | hs
    · exact absurd rfl hps
    · exact ⟨s, hs, by simpa using hps⟩

-- ---------------------------------------------------------------------------
-- The answer
-- ---------------------------------------------------------------------------

theorem bestOf_cases (ps : List P) :
    ps = [] ∧ bestOf ps = .error .empty ∨
      (∃ p ∈ ps, ∃ q ∈ ps, key p ≠ key q) ∧ bestOf ps = .error .ambiguous ∨
      (∀ p ∈ ps, ∀ q ∈ ps, key p = key q) ∧ ∃ p, IsLastMaximal ps p ∧ bestOf ps = .ok p := by
  cases ps with
  | nil => exact .inl ⟨rfl, rfl⟩
  | cons p ps =>
    have hdiv := dividesAt_bestFrom p false ps
    have hdiff := differs_bestFrom_iff p ps
    rw [bestOf]
    cases hb : bestFrom p false ps with
    | mk best differs =>
      rw [hb] at hdiv hdiff
      cases differs with
      | true => exact .inr (.inl ⟨hdiff.mp rfl, rfl⟩)
      | false =>
        refine .inr (.inr ⟨?_, best, hdiv.isLastMaximal, rfl⟩)
        intro q hq r hr
        refine Decidable.byContradiction fun hne => ?_
        simpa using hdiff.mpr ⟨q, hq, r, hr, hne⟩

theorem IsLastMaximal.unique {ps : List P} {p q : P} (hp : IsLastMaximal ps p)
    (hq : IsLastMaximal ps q) : p = q := by
  obtain ⟨before, after, rfl, hmax, hlast⟩ := hp
  obtain ⟨before', after', heq, hmax', hlast'⟩ := hq
  rcases List.append_eq_append_iff.mp heq with ⟨mid, rfl, hmid⟩ | ⟨mid, rfl, hmid⟩
  · cases mid with
    | nil => exact (List.cons.inj hmid).1
    | cons x mid =>
      obtain ⟨rfl, rfl⟩ := List.cons.inj hmid
      exact absurd hmax' (hlast q (by simp))
  · cases mid with
    | nil => exact (List.cons.inj hmid).1.symm
    | cons x mid =>
      obtain ⟨rfl, rfl⟩ := List.cons.inj hmid
      exact absurd hmax (hlast' p (by simp))

def answerOf (items : List (Except Error P)) : Except Error P :=
  items.mapM id >>= fun ps => (bestOf ps).mapError (.set · .best)

@[simp] theorem answerOf_ok (ps : List P) :
    answerOf (ps.map .ok) = (bestOf ps).mapError (.set · .best) := by
  rw [answerOf, Timeline.mapM_items_ok]
  rfl

@[simp] theorem answerOf_error (ps : List P) (e : Error) (rest : List (Except Error P)) :
    answerOf (ps.map .ok ++ .error e :: rest) = .error e := by
  rw [answerOf, Timeline.mapM_items_error]
  rfl

theorem bestAnswer_answerOf (items : List (Except Error P)) :
    BestAnswer items (answerOf items) := by
  rcases Timeline.items_cases items with ⟨ps, rfl⟩ | ⟨ps, e, rest, rfl⟩
  · rw [answerOf_ok]
    rcases bestOf_cases ps with ⟨rfl, h⟩ | ⟨⟨p, hp, q, hq, hne⟩, h⟩ | ⟨hsame, p, hlast, h⟩
    · exact .empty
    · rw [h]
      exact .ambiguous hp hq hne
    · rw [h]
      exact .best hsame hlast
  · rw [answerOf_error]
    exact .error ps e rest

theorem BestAnswer.eq_answerOf {items : List (Except Error P)} {r : Except Error P}
    (h : BestAnswer items r) : answerOf items = r := by
  cases h with
  | error ps e rest => exact answerOf_error ps e rest
  | empty => rfl
  | @ambiguous ps p q hp hq hne =>
    rw [answerOf_ok]
    rcases bestOf_cases ps with ⟨rfl, -⟩ | ⟨-, h⟩ | ⟨hsame, -⟩
    · simp at hp
    · rw [h]
      rfl
    · exact absurd (hsame p hp q hq) hne
  | @best ps p hsame hlast =>
    rw [answerOf_ok]
    rcases bestOf_cases ps with ⟨rfl, -⟩ | ⟨⟨q, hq, r, hr, hne⟩, -⟩ | ⟨-, q, hlast', h⟩
    · obtain ⟨before, after, h, -⟩ := hlast
      simp at h
    · exact absurd (hsame q hq r hr) hne
    · rw [h, hlast.unique hlast']
      rfl

namespace Timeline

theorem result_best (t : Timeline P) : t.best.result = answerOf t.items := by
  rw [answerOf, ← result_packages, best]
  cases h : t.packages.result with
  | error e => exact Answer.result_bind_error h _
  | ok ps => exact Answer.result_bind_ok h _

theorem result_best_iff (t : Timeline P) (r : Except Error P) :
    t.best.result = r ↔ BestAnswer t.items r := by
  rw [result_best]
  constructor
  · rintro rfl
    exact bestAnswer_answerOf t.items
  · exact BestAnswer.eq_answerOf

end Timeline

end PackageAlgebra
