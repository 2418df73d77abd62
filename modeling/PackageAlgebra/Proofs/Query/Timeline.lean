import PackageAlgebra.Query.Selection
import PackageAlgebra.Query.Timeline

/-!
# Timelines and filters one after another

What an answer says does not depend on the calls made on the way. A package that
goes through two filters is asked the same conditions, with the same calls, as
one that goes through a single filter made of both. `filter_join` carries this
over from one package to a timeline, step by step.
-/

namespace PackageAlgebra

-- ---------------------------------------------------------------------------
-- Reading to the end
-- ---------------------------------------------------------------------------

namespace Answer

@[simp] theorem result_after (c : Call P) (a : Answer P α) : (a.after c).result = a.result :=
  rfl

@[simp] theorem result_ofExcept (r : Except Error α) :
    (ofExcept r : Answer P α).result = r :=
  rfl

theorem result_bind_ok {a : Answer P α} (h : a.result = .ok x) (f : α → Answer P β) :
    (a >>= f).result = (f x).result := by
  show (a.andThen f).result = _
  rw [andThen, h]

theorem result_bind_error {a : Answer P α} (h : a.result = .error e) (f : α → Answer P β) :
    (a >>= f).result = .error e := by
  show (a.andThen f).result = _
  rw [andThen, h]

@[simp] theorem result_map (f : α → β) (a : Answer P α) : (f <$> a).result = a.result.map f := by
  show (a >>= pure ∘ f).result = _
  cases h : a.result with
  | error e => exact result_bind_error h _
  | ok x => exact result_bind_ok h _

end Answer

namespace Timeline

@[simp] theorem items_nil : items ([] : Timeline P) = [] :=
  rfl

@[simp] theorem items_call (c : Call P) (t : Timeline P) : items (.call c :: t) = items t :=
  rfl

@[simp] theorem items_item (i : Except Error P) (t : Timeline P) :
    items (.item i :: t) = i :: items t :=
  rfl

@[simp] theorem items_calls_append (calls : List (Call P)) (t : Timeline P) :
    items (calls.map .call ++ t) = items t := by
  induction calls with
  | nil => rfl
  | cons c calls ih => exact ih

@[simp] theorem mapM_items_ok (ps : List P) :
    (ps.map Except.ok).mapM id = (.ok ps : Except Error (List P)) := by
  induction ps with
  | nil => rfl
  | cons p ps ih =>
    rw [List.map_cons, List.mapM_cons, ih]
    rfl

@[simp] theorem mapM_items_error (ps : List P) (e : Error) (rest : List (Except Error P)) :
    (ps.map Except.ok ++ Except.error e :: rest).mapM id = .error e := by
  induction ps with
  | nil => rfl
  | cons p ps ih =>
    rw [List.map_cons, List.cons_append, List.mapM_cons, ih]
    rfl

theorem items_cases (items : List (Except Error P)) :
    (∃ ps : List P, items = ps.map .ok) ∨
      ∃ (ps : List P) (e : Error) (rest : List (Except Error P)),
        items = ps.map .ok ++ .error e :: rest := by
  induction items with
  | nil => exact .inl ⟨[], rfl⟩
  | cons i items ih =>
    cases i with
    | error e => exact .inr ⟨[], e, items, rfl⟩
    | ok p =>
      rcases ih with ⟨ps, rfl⟩ | ⟨ps, e, rest, rfl⟩
      · exact .inl ⟨p :: ps, rfl⟩
      · exact .inr ⟨p :: ps, e, rest, rfl⟩

theorem result_packages (t : Timeline P) : t.packages.result = t.items.mapM id := by
  induction t with
  | nil => rfl
  | cons event t ih =>
    match event with
    | .call c => simpa [packages] using ih
    | .item (.error e) => rfl
    | .item (.ok p) =>
      rw [items_item, List.mapM_cons, ← ih]
      cases h : (packages t).result with
      | error e => exact Answer.result_bind_error h _
      | ok ps => exact Answer.result_bind_ok h _

/-- What a sequence of items has for its next one, with what is left behind it. -/
inductive NextAnswer : List (Except Error P) → Except Error (Option (P × Timeline P)) → Prop
  | none : NextAnswer [] (.ok none)
  | error (e : Error) (rest : List (Except Error P)) : NextAnswer (.error e :: rest) (.error e)
  | package (p : P) (rest : Timeline P) : NextAnswer (.ok p :: rest.items) (.ok (some (p, rest)))

theorem nextAnswer_next? (t : Timeline P) : NextAnswer t.items t.next?.result := by
  induction t with
  | nil => exact .none
  | cons event t ih =>
    match event with
    | .call c => exact ih
    | .item (.error e) => exact .error e (items t)
    | .item (.ok p) => exact .package p t

end Timeline

variable {P : Type}

namespace Inspection

def andThen (first : Inspection P α) (rest : β) (second : Inspection P β) :
    Inspection P (α × β) :=
  match first.answer with
  | .ok true => ⟨second.answer, first.calls ++ second.calls, (first.asked, second.asked)⟩
  | answer => ⟨answer, first.calls, (first.asked, rest)⟩

theorem andThen_met {first : Inspection P α} (h : first.answer = .ok true) (rest : β)
    (second : Inspection P β) :
    first.andThen rest second =
      ⟨second.answer, first.calls ++ second.calls, (first.asked, second.asked)⟩ := by
  rw [andThen, h]

theorem andThen_unmet {first : Inspection P α} (h : first.answer ≠ .ok true) (rest : β)
    (second : Inspection P β) :
    first.andThen rest second = ⟨first.answer, first.calls, (first.asked, rest)⟩ := by
  rw [andThen]
  split
  next hmet => exact absurd hmet h
  next => rfl

theorem andThen_map (f : α → α') (g : β → β') (first : Inspection P α) (rest : β)
    (second : Inspection P β) :
    (first.map f).andThen (g rest) (second.map g) =
      (first.andThen rest second).map fun (a, b) => (f a, g b) := by
  -- a map leaves the answer as it is
  have hanswer : (first.map f).answer = first.answer := rfl
  by_cases h : first.answer = .ok true
  · rw [andThen_met h, andThen_met (hanswer.trans h)]
    rfl
  · rw [andThen_unmet h, andThen_unmet (hanswer ▸ h)]
    rfl

end Inspection

def Filter.both (f g : Filter P) : Filter P :=
  ⟨[f.nested, g.nested]⟩

variable [Package P]

-- ---------------------------------------------------------------------------
-- One package
-- ---------------------------------------------------------------------------

namespace Condition

theorem inspectAll_cons (p : P) (c : Condition P) (cs : List (Condition P)) :
    inspectAll p (c :: cs) =
      ((inspect p c).andThen cs (inspectAll p cs)).map fun (c, cs) => c :: cs := by
  rw [inspectAll]
  split
  next hmet => rw [Inspection.andThen_met hmet]; rfl
  next hunmet => rw [Inspection.andThen_unmet hunmet]; rfl

theorem inspectAll_append (p : P) (cs ds : List (Condition P)) :
    inspectAll p (cs ++ ds) =
      ((inspectAll p cs).andThen ds (inspectAll p ds)).map fun (cs, ds) => cs ++ ds := by
  induction cs with
  | nil => rfl
  | cons c cs ih =>
    rw [List.cons_append, inspectAll_cons, inspectAll_cons, ih]
    by_cases hc : (inspect p c).answer = .ok true
    · by_cases hcs : (inspectAll p cs).answer = .ok true
      · simp [Inspection.andThen_met, Inspection.map, hc, hcs]
      · simp [Inspection.andThen_met, Inspection.andThen_unmet, Inspection.map, hc, hcs]
    · simp [Inspection.andThen_unmet, Inspection.map, hc]

theorem inspectAll_nested (p : P) (cs ds : List (Condition P)) :
    inspectAll p [.all cs, .all ds] =
      ((inspectAll p cs).andThen ds (inspectAll p ds)).map fun (cs, ds) => [.all cs, .all ds] := by
  rw [inspectAll_cons, inspectAll_cons, inspect, inspect]
  by_cases hcs : (inspectAll p cs).answer = .ok true
  · by_cases hds : (inspectAll p ds).answer = .ok true
    · simp [Inspection.andThen_met, Inspection.map, inspectAll, hcs, hds]
    · simp [Inspection.andThen_met, Inspection.andThen_unmet, Inspection.map, hcs, hds]
  · simp [Inspection.andThen_unmet, Inspection.map, hcs]

end Condition

namespace Filter

/-- A way to make one filter of two that asks the first and then, if it is met, the second. -/
def AsksInTurn (join : Filter P → Filter P → Filter P) : Prop :=
  ∀ (f g : Filter P) (p : P), (join f g).inspect p =
    ((f.inspect p).andThen g (g.inspect p)).map fun (f, g) => join f g

theorem inspect_andThen (f g : Filter P) (p : P) :
    (f.inspect p).andThen g (g.inspect p) =
      ((Condition.inspectAll p f.conditions).andThen g.conditions
        (Condition.inspectAll p g.conditions)).map fun (cs, ds) => (⟨cs⟩, ⟨ds⟩) :=
  Inspection.andThen_map Filter.mk Filter.mk _ g.conditions _

theorem asksInTurn_and : AsksInTurn (P := P) Filter.and := by
  intro f g p
  rw [inspect_andThen, inspect, conditions_and, Condition.inspectAll_append]
  rfl

theorem asksInTurn_both : AsksInTurn (P := P) Filter.both := by
  intro f g p
  rw [inspect_andThen, inspect]
  show (Condition.inspectAll p [.all f.conditions, .all g.conditions]).map Filter.mk = _
  rw [Condition.inspectAll_nested]
  rfl

end Filter

-- ---------------------------------------------------------------------------
-- A timeline
-- ---------------------------------------------------------------------------

namespace Timeline

theorem filter_calls_append (f : Filter P) (calls : List (Call P)) (t : Timeline P) :
    filter f (calls.map .call ++ t) = calls.map .call ++ filter f t := by
  induction calls with
  | nil => rfl
  | cons c calls ih => exact congrArg (Event.call c :: ·) ih

theorem filter_join {join : Filter P → Filter P → Filter P} (h : Filter.AsksInTurn join)
    (f g : Filter P) (t : Timeline P) : (t.filter f).filter g = t.filter (join f g) := by
  induction t generalizing f g with
  | nil => rfl
  | cons event t ih =>
    match event with
    | .call c => exact congrArg (Event.call c :: ·) (ih f g)
    | .item (.error e) => exact congrArg (Event.item (.error e) :: ·) (ih f g)
    | .item (.ok p) =>
      rw [filter, filter_calls_append, filter, h f g p]
      cases hf : (f.inspect p).answer with
      | error e =>
        rw [Inspection.andThen_unmet (by simp [hf])]
        simp [Inspection.map, hf, filter, ih]
      | ok holds =>
        cases holds with
        | false =>
          rw [Inspection.andThen_unmet (by simp [hf])]
          simp [Inspection.map, hf, ih]
        | true =>
          rw [Inspection.andThen_met hf]
          -- the second filter now sees the package, behind the calls of the first
          simp only [Inspection.map, filter, List.map_append, List.append_assoc]
          cases hg : (g.inspect p).answer with
          | error e => simp [ih]
          | ok holds => cases holds <;> simp [ih]

theorem filter_and (f g : Filter P) (t : Timeline P) :
    (t.filter f).filter g = t.filter (f.and g) :=
  filter_join Filter.asksInTurn_and f g t

theorem filter_both (f g : Filter P) (t : Timeline P) :
    (t.filter f).filter g = t.filter (f.both g) :=
  filter_join Filter.asksInTurn_both f g t

end Timeline

-- ---------------------------------------------------------------------------
-- Questions
-- ---------------------------------------------------------------------------

/-- The same result as `old`, but a fault of the set is worded for the question. -/
inductive Reworded (question : SetQuestion) : (new old : Except Error α) → Prop
  | ok (a : α) : Reworded question (.ok a) (.ok a)
  | fault (fault : SetFault) (asked : SetQuestion) :
      Reworded question (.error (.set fault question)) (.error (.set fault asked))
  | error {e : Error} : (∀ fault asked, e ≠ .set fault asked) →
      Reworded question (.error e) (.error e)

theorem reworded_mapError (question : SetQuestion) (r : Except Error α) :
    Reworded question (r.mapError (Error.askedBy question)) r := by
  cases r with
  | ok a => exact .ok a
  | error e =>
    cases e with
    | set fault asked => exact .fault fault asked
    | _ => exact .error fun _ _ h => nomatch h

/-- A set narrowed twice, a set behind two decorators and a set behind one filter of both kinds
go through the same steps: the same items come out, with the same calls between them. So every
question to them has the same answer. -/
theorem Timeline.filters_fuse (t : Timeline P) (f g : Filter P) :
    ((FilteredSet.mk t f).narrow g).timeline = t.filter (f.and g) ∧
    (FilteredSet.mk (FilteredSet.mk t f).timeline g).timeline = t.filter (f.and g) ∧
    (FilteredSet.mk t (f.both g)).timeline = t.filter (f.and g) ∧
    (t.filter f).select g = t.select (f.and g) ∧
    (t.filter f).get g = t.get (f.and g) ∧
    (t.filter f).contains g = t.contains (f.and g) ∧
    (t.select f).calls = (t.filter f).best.calls ∧
    Reworded .select (t.select f).result (t.filter f).best.result := by
  have hand := t.filter_and f g
  refine ⟨rfl, hand, ?_, ?_, ?_, ?_, rfl, reworded_mapError .select _⟩
  · exact (t.filter_both f g).symm.trans hand
  · rw [Timeline.select, Timeline.select, hand]
  · rw [Timeline.get, Timeline.get, hand]
  · rw [Timeline.contains, Timeline.contains, hand]

end PackageAlgebra
