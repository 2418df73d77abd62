import PackageAlgebra.Proofs.Query.Associate
import PackageAlgebra.Proofs.Query.AttributePath
import PackageAlgebra.Proofs.Query.Timeline

/-!
# Questions that agree

What the questions answer is said by the items behind the filter, and agrees as
long as no item itself is a fault of a set. The items of a repository never are,
since a filter fails for a missing attribute only.
-/

namespace PackageAlgebra

variable {P : Type} [Package P]

-- ---------------------------------------------------------------------------
-- The errors of a filter
-- ---------------------------------------------------------------------------

namespace Condition

mutual

theorem inspect_error {p : P} {e : Error} : (c : Condition P) →
    (inspect p c).answer = .error e → ∃ name, e = .attributeNotFound name (Package.key p)
  | .atom _, h => nomatch h
  | .predicate _, h => nomatch h
  | .attribute path test, h => by
    have hvalue : (path.resolve p).1.map test.holds = .error e := h
    cases hresolve : (path.resolve p).1 with
    | ok value =>
      rw [hresolve] at hvalue
      cases hvalue
    | error e' =>
      rw [hresolve] at hvalue
      cases hvalue
      exact ⟨path.name, (AttributePath.result_eq_error_iff.mp hresolve).1⟩
  | .all cs, h => inspectAll_error cs h

theorem inspectAll_error {p : P} {e : Error} : (cs : List (Condition P)) →
    (inspectAll p cs).answer = .error e → ∃ name, e = .attributeNotFound name (Package.key p)
  | [], h => nomatch h
  | c :: cs, h => by
    rw [inspectAll_cons] at h
    by_cases hmet : (inspect p c).answer = .ok true
    · rw [Inspection.andThen_met hmet] at h
      exact inspectAll_error cs h
    · rw [Inspection.andThen_unmet hmet] at h
      exact inspect_error c h

end

end Condition

namespace Timeline

/-- The error is an item, or it is that a package lacks an attribute. -/
def Explains (t : Timeline P) (e : Error) : Prop :=
  .error e ∈ t.items ∨ ∃ p name, .ok p ∈ t.items ∧ e = .attributeNotFound name (Package.key p)

theorem Explains.cons {t : Timeline P} {e : Error} (h : Explains t e) (i : Except Error P) :
    Explains (.item i :: t) e := by
  rcases h with h | ⟨p, name, hp, rfl⟩
  · exact .inl (List.mem_cons_of_mem i h)
  · exact .inr ⟨p, name, List.mem_cons_of_mem i hp, rfl⟩

theorem explains_of_mem_items_filter {t : Timeline P} {f : Filter P} {e : Error}
    (h : .error e ∈ (t.filter f).items) : Explains t e := by
  induction t generalizing f with
  | nil => cases h
  | cons event t ih =>
    cases event with
    | call c => exact ih h
    | item i =>
      cases i with
      | error e' =>
        rw [filter, items_item, List.mem_cons] at h
        rcases h with heq | h
        · exact .inl (heq ▸ List.mem_cons_self)
        · exact (ih h).cons _
      | ok p =>
        rw [filter, items_calls_append] at h
        split at h
        · rw [items_item, List.mem_cons] at h
          rcases h with heq | h
          · cases heq
          · exact (ih h).cons _
        · exact (ih h).cons _
        next e' hanswer =>
          rw [items_item, List.mem_cons] at h
          rcases h with heq | h
          · obtain ⟨name, rfl⟩ := Condition.inspectAll_error f.conditions hanswer
            exact .inr ⟨p, name, List.mem_cons_self, Except.error.inj heq⟩
          · exact (ih h).cons _

-- ---------------------------------------------------------------------------
-- What the items say
-- ---------------------------------------------------------------------------

def anyOf : List (Except Error P) → Except Error Bool
  | [] => .ok false
  | .error e :: _ => .error e
  | .ok _ :: _ => .ok true

def onlyOf : List (Except Error P) → Except Error P
  | [] => .error (.set .empty .get)
  | .error e :: _ => .error e
  | [.ok p] => .ok p
  | .ok _ :: .error e :: _ => .error e
  | .ok _ :: .ok _ :: _ => .error (.set .ambiguous .get)

omit [Package P] in
/-- A question that begins with the next item is answered by the items, if it passes on an error
and its answer to a package goes by the items behind that. -/
theorem result_bind_next? (answer : List (Except Error P) → Except Error α) {t : Timeline P}
    {ask : Option (P × Timeline P) → Answer P α} (hnone : (ask none).result = answer [])
    (herror : ∀ e rest, answer (.error e :: rest) = .error e)
    (hpackage : ∀ p (rest : Timeline P),
      (ask (some (p, rest))).result = answer (.ok p :: rest.items)) :
    (t.next? >>= ask).result = answer t.items := by
  have h := t.nextAnswer_next?
  generalize t.items = items at h ⊢
  cases hr : t.next?.result with
  | error e =>
    rw [hr] at h
    rw [Answer.result_bind_error hr]
    cases h
    exact (herror ..).symm
  | ok next =>
    rw [hr] at h
    rw [Answer.result_bind_ok hr]
    cases h with
    | none => exact hnone
    | package p rest => exact hpackage p rest

theorem result_contains (t : Timeline P) (f : Filter P) :
    (t.contains f).result = anyOf (t.filter f).items :=
  result_bind_next? anyOf rfl (fun _ _ => rfl) fun _ _ => rfl

omit [Package P] in
theorem result_isEmpty (t : Timeline P) : t.isEmpty.result = (anyOf t.items).map not :=
  result_bind_next? (fun items => (anyOf items).map not) rfl (fun _ _ => rfl) fun _ _ => rfl

theorem result_get (t : Timeline P) (f : Filter P) :
    (t.get f).result = onlyOf (t.filter f).items :=
  result_bind_next? onlyOf rfl (fun _ _ => rfl) fun p _ =>
    result_bind_next? (fun items => onlyOf (.ok p :: items)) rfl (fun _ _ => rfl) fun _ _ => rfl

-- ---------------------------------------------------------------------------
-- Faults of a set
-- ---------------------------------------------------------------------------

/-- Fails for this fault of the set, however that is worded. -/
def FailsFor (fault : SetFault) (r : Except Error α) : Prop :=
  ∃ question, r = .error (.set fault question)

/-- No error is a fault of a set. -/
def Faultless (items : List (Except Error P)) : Prop :=
  ∀ e, .error e ∈ items → ∀ fault question, e ≠ .set fault question

theorem failsFor_askedBy {fault : SetFault} {question : SetQuestion} {r : Except Error α} :
    FailsFor fault (r.mapError (Error.askedBy question)) ↔ FailsFor fault r := by
  have h := reworded_mapError question r
  generalize r.mapError (Error.askedBy question) = new at h
  cases h with
  | ok a => exact .rfl
  | fault => simp [FailsFor]
  | error => exact .rfl

variable {items : List (Except Error P)}

omit [Package P] in
theorem Faultless.not_failsFor {e : Error} (h : Faultless items) (hmem : .error e ∈ items)
    (fault : SetFault) : ¬FailsFor fault (.error e : Except Error P) := by
  rintro ⟨question, heq⟩
  exact h e hmem fault question (Except.error.inj heq)

omit [Package P] in
theorem anyOf_eq_false_iff : anyOf items = .ok false ↔ items = [] := by
  match items with
  | [] => simp [anyOf]
  | .error e :: rest => simp [anyOf]
  | .ok p :: rest => simp [anyOf]

omit [Package P] in
theorem onlyOf_eq_ok_iff {p : P} : onlyOf items = .ok p ↔ items = [.ok p] := by
  match items with
  | [] => simp [onlyOf]
  | .error e :: rest => simp [onlyOf]
  | [.ok q] => simp [onlyOf]
  | .ok q :: .error e :: rest => simp [onlyOf]
  | .ok q :: .ok r :: rest => simp [onlyOf]

omit [Package P] in
theorem failsFor_empty_onlyOf (h : Faultless items) :
    FailsFor .empty (onlyOf items) ↔ items = [] := by
  match items with
  | [] => simp [onlyOf, FailsFor]
  | .error e :: rest => simp [onlyOf, h.not_failsFor]
  | [.ok p] => simp [onlyOf, FailsFor]
  | .ok p :: .error e :: rest => simp [onlyOf, h.not_failsFor]
  | .ok p :: .ok q :: rest => simp [onlyOf, FailsFor]

omit [Package P] in
theorem failsFor_ambiguous_onlyOf (h : Faultless items) :
    FailsFor .ambiguous (onlyOf items) ↔ ∃ p q rest, items = .ok p :: .ok q :: rest := by
  match items with
  | [] => simp [onlyOf, FailsFor]
  | .error e :: rest => simp [onlyOf, h.not_failsFor]
  | [.ok p] => simp [onlyOf, FailsFor]
  | .ok p :: .error e :: rest => simp [onlyOf, h.not_failsFor]
  | .ok p :: .ok q :: rest => simp [onlyOf, FailsFor]

theorem failsFor_empty_bestAnswer {r : Except Error P} (hbest : BestAnswer items r)
    (h : Faultless items) : FailsFor .empty r ↔ items = [] := by
  cases hbest with
  | error ps e rest => simp [h.not_failsFor]
  | empty => simp [FailsFor]
  | ambiguous hp => simp [FailsFor, List.ne_nil_of_mem hp]
  | best _ hlast =>
    obtain ⟨before, after, rfl, -⟩ := hlast
    simp [FailsFor]

theorem packages_of_bestAnswer {p : P} (h : BestAnswer items (.ok p)) :
    .ok p ∈ items ∧ ∀ e, .error e ∉ items := by
  cases h with
  | best _ hlast =>
    obtain ⟨before, after, -, ⟨hp, -⟩, -⟩ := hlast
    exact ⟨List.mem_map_of_mem hp, by simp⟩

-- ---------------------------------------------------------------------------
-- The questions agree
-- ---------------------------------------------------------------------------

/-- What the questions to a set and a filter say of the items behind the filter, and with that of
one another. -/
structure Concord (t : Timeline P) (f : Filter P) : Prop where
  contains : (t.contains f).result = .ok false ↔ (t.filter f).items = []
  isEmpty : (t.filter f).isEmpty.result = .ok true ↔ (t.filter f).items = []
  get_empty : FailsFor .empty (t.get f).result ↔ (t.filter f).items = []
  select_empty : FailsFor .empty (t.select f).result ↔ (t.filter f).items = []
  get_ok (p : P) : (t.get f).result = .ok p ↔ (t.filter f).items = [.ok p]
  of_get (p : P) : (t.get f).result = .ok p →
    (t.select f).result = .ok p ∧ (t.contains f).result = .ok true
  get_ambiguous : FailsFor .ambiguous (t.get f).result ↔
    ∃ p q rest, (t.filter f).items = .ok p :: .ok q :: rest
  select_ok (p : P) : (t.select f).result = .ok p →
    .ok p ∈ (t.filter f).items ∧ ∀ e, .error e ∉ (t.filter f).items

theorem concord_of_faultless {t : Timeline P} {f : Filter P}
    (h : Faultless (t.filter f).items) : t.Concord f where
  contains := by rw [result_contains, anyOf_eq_false_iff]
  isEmpty := by
    rw [result_isEmpty, ← anyOf_eq_false_iff]
    match anyOf (t.filter f).items with
    | .error e => simp [Except.map]
    | .ok any => simp [Except.map]
  get_empty := by rw [result_get, failsFor_empty_onlyOf h]
  select_empty := by
    rw [select, Answer.mapError, failsFor_askedBy]
    exact failsFor_empty_bestAnswer ((result_best_iff _ _).mp rfl) h
  get_ok p := by rw [result_get, onlyOf_eq_ok_iff]
  of_get p hget := by
    rw [result_get, onlyOf_eq_ok_iff] at hget
    constructor
    · rw [result_select_eq_ok_iff, result_best, hget]
      rfl
    · rw [result_contains, hget]
      rfl
  get_ambiguous := by rw [result_get, failsFor_ambiguous_onlyOf h]
  select_ok p hselect :=
    packages_of_bestAnswer ((result_best_iff _ _).mp (result_select_eq_ok_iff.mp hselect))

theorem concord_ofPackages (ps : List P) (f : Filter P) : (ofPackages ps).Concord f := by
  refine concord_of_faultless fun e he fault question heq => ?_
  rcases explains_of_mem_items_filter he with hmem | ⟨p, name, -, hlacks⟩
  · simp at hmem
  · rw [hlacks] at heq
    cases heq

theorem questions_agree :
    (∀ (r : Repository) (f : Filter PackageRecord), r.timeline.Concord f) ∧
      ∀ (stack : RepositoryStack) (f : Filter PackageRecord), stack.timeline.Concord f :=
  ⟨fun r => concord_ofPackages r.packages, fun stack => concord_ofPackages stack.packages⟩

end Timeline

end PackageAlgebra
