import PackageAlgebra.Proofs.Query.AttributePath
import PackageAlgebra.Proofs.Query.Concord
import PackageAlgebra.Proofs.Query.Watched

/-!
# How far a set is read

Whether a set contains a package and whether a filtered set is empty is settled
by the first package that meets the filter, the one package by the second, and
each of them by the first error. A question reads the set up to there
(`StopsAt`), so what stands behind is not asked about and changes nothing.
-/

namespace PackageAlgebra

variable {P : Type}

-- ---------------------------------------------------------------------------
-- Reading on
-- ---------------------------------------------------------------------------

namespace Answer

theorem andThen_after (c : Call P) (a : Answer P α) (next : α → Answer P β) :
    (a.after c).andThen next = (a.andThen next).after c := by
  rw [andThen, andThen, result_after]
  cases a.result <;> rfl

theorem map_eq (f : α → β) (a : Answer P α) : f <$> a = ⟨a.result.map f, a.calls⟩ := by
  show a.andThen (pure ∘ f) = _
  rw [andThen]
  cases a.result with
  | error e => rfl
  | ok x => exact congrArg (Answer.mk _) (List.append_nil a.calls)

theorem calls_andThen_ofExcept (a : Answer P α) (r : α → Except Error β) :
    (a.andThen fun x => ofExcept (r x)).calls = a.calls := by
  rw [andThen]
  cases a.result with
  | error e => rfl
  | ok x => exact List.append_nil a.calls

theorem andThen_assoc (a : Answer P α) (f : α → Answer P β) (g : β → Answer P γ) :
    (a.andThen f).andThen g = a.andThen fun x => (f x).andThen g := by
  rw [andThen, andThen, andThen]
  cases a.result with
  | error e => rfl
  | ok x =>
    simp only [andThen]
    cases (f x).result <;> simp

theorem map_andThen (f : α → β) (a : Answer P α) (g : β → Answer P γ) :
    (f <$> a).andThen g = a.andThen fun x => g (f x) :=
  andThen_assoc a _ g

end Answer

namespace Timeline

/-- The first packages that a timeline brings, at most `n` of them. -/
def firstPackages : Nat → Timeline P → Answer P (List P)
  | 0, _ => .ofExcept (.ok [])
  | n + 1, t => t.next?.andThen fun
    | none => .ofExcept (.ok [])
    | some (p, rest) => (p :: ·) <$> firstPackages n rest

theorem firstPackages_call (n : Nat) (c : Call P) (t : Timeline P) :
    firstPackages (n + 1) (.call c :: t) = (firstPackages (n + 1) t).after c :=
  Answer.andThen_after c t.next? _

theorem firstPackages_append {n : Nat} {s : Timeline P} {ps : List P} (hs : s.items = ps.map .ok)
    (hn : ps.length < n) (t : Timeline P) :
    firstPackages n (s ++ t) =
      ⟨(firstPackages (n - ps.length) t).result.map (ps ++ ·),
        s.calls ++ (firstPackages (n - ps.length) t).calls⟩ := by
  induction s generalizing n ps with
  | nil =>
    obtain rfl : ps = [] := by simpa using hs
    show firstPackages n t = ⟨(firstPackages n t).result.map id, (firstPackages n t).calls⟩
    rw [Except.map_id]
    rfl
  | cons event s ih =>
    match event, n, hn with
    | .call c, n + 1, hn =>
      rw [List.cons_append, firstPackages_call, ih hs hn]
      rfl
    | .item i, n + 1, hn =>
      rw [items_item] at hs
      cases ps with
      | nil => cases hs
      | cons p ps =>
        obtain ⟨rfl, hitems⟩ := List.cons.inj hs
        have hrest := ih hitems (Nat.lt_of_succ_lt_succ hn)
        show (p :: ·) <$> firstPackages n (s ++ t) = _
        rw [Answer.map_eq, hrest, List.length_cons, Nat.add_sub_add_right]
        congr 1
        cases (firstPackages (n - ps.length) t).result <;> rfl

def firstOf : Nat → List (Except Error P) → Except Error (List P)
  | 0, _ => .ok []
  | _ + 1, [] => .ok []
  | _ + 1, .error e :: _ => .error e
  | n + 1, .ok p :: rest => (firstOf n rest).map (p :: ·)

theorem result_firstPackages (n : Nat) (t : Timeline P) :
    (firstPackages n t).result = firstOf n t.items := by
  induction n generalizing t with
  | zero => rfl
  | succ n ih =>
    refine result_bind_next? (firstOf (n + 1)) rfl (fun _ _ => rfl) fun p rest => ?_
    show ((p :: ·) <$> firstPackages n rest).result = _
    rw [Answer.result_map, ih]
    rfl

-- ---------------------------------------------------------------------------
-- Where reading stops
-- ---------------------------------------------------------------------------

variable [Package P]

/-- What the filter answers to each item; an error that comes with the set is the answer to
itself. -/
def verdicts (f : Filter P) : Timeline P → List (Except Error Bool)
  | [] => []
  | .call _ :: rest => verdicts f rest
  | .item (.error e) :: rest => .error e :: verdicts f rest
  | .item (.ok p) :: rest => (f.inspect p).answer :: verdicts (f.inspect p).asked rest

/-- The filter has an answer to every item, and fewer than `n` of the packages meet it. -/
def Open (t : Timeline P) (f : Filter P) (n : Nat) : Prop :=
  ∃ holds : List Bool, t.verdicts f = holds.map .ok ∧ holds.count true < n

/-- The timeline ends with the item that settles what is open before it: an error, or the `n`th
package that meets the filter. -/
def Settled (t : Timeline P) (f : Filter P) (n : Nat) : Prop :=
  ∃ (front : Timeline P) (i : Except Error P) (holds : List Bool) (verdict : Except Error Bool),
    t = front ++ [.item i] ∧
    t.verdicts f = holds.map .ok ++ [verdict] ∧ holds.count true < n ∧
    ((∃ e, verdict = .error e) ∨ verdict = .ok true ∧ holds.count true + 1 = n)

/-- Whoever looks for `n` packages that meet the filter has to read this much: the front up to the
item that settles it, or everything if none does. -/
def StopsAt (t : Timeline P) (f : Filter P) (n : Nat) (read : Timeline P) : Prop :=
  t.Open f n ∧ read = t ∨ read.Settled f n ∧ read <+: t

theorem verdicts_append (s t : Timeline P) (f : Filter P) :
    verdicts f (s ++ t) = verdicts f s ++ verdicts (filterAfter f s) t := by
  induction s generalizing f with
  | nil => rfl
  | cons event s ih =>
    match event with
    | .call _ => exact ih f
    | .item (.error e) => exact congrArg (Except.error e :: ·) (ih f)
    | .item (.ok p) => exact congrArg ((f.inspect p).answer :: ·) (ih _)

theorem filter_append (s t : Timeline P) (f : Filter P) :
    (s ++ t).filter f = s.filter f ++ t.filter (filterAfter f s) := by
  induction s generalizing f with
  | nil => rfl
  | cons event s ih =>
    match event with
    | .call c => exact congrArg (Event.call c :: ·) (ih f)
    | .item (.error e) => exact congrArg (Event.item (.error e) :: ·) (ih f)
    | .item (.ok p) =>
      rw [List.cons_append, filter_package, filter_package, ih, filterAfter, List.append_assoc,
        List.append_assoc]

theorem exists_filter_item (f : Filter P) (i : Except Error P) :
    ∃ (verdict : Except Error Bool) (calls : List (Call P)) (g : Filter P),
      verdicts f [.item i] = [verdict] ∧
      ∀ t, filter f (.item i :: t) = calls.map .call ++ (outcome i verdict ++ filter g t) :=
  match i with
  | .error e => ⟨.error e, [], f, rfl, fun _ => rfl⟩
  | .ok p =>
    ⟨(f.inspect p).answer, (f.inspect p).calls, (f.inspect p).asked, rfl, filter_package f p⟩

theorem items_filter_of_verdicts {t : Timeline P} {f : Filter P} {holds : List Bool}
    (h : t.verdicts f = holds.map .ok) :
    (t.filter f).items = (t.met f).map .ok ∧ (t.met f).length = holds.count true := by
  induction t generalizing f holds with
  | nil =>
    obtain rfl : holds = [] := by simpa [verdicts] using h.symm
    exact ⟨rfl, rfl⟩
  | cons event t ih =>
    match event with
    | .call _ => exact ih h
    | .item (.error e) =>
      cases holds with
      | nil => cases h
      | cons b holds => cases (List.cons.inj h).1
    | .item (.ok p) =>
      cases holds with
      | nil => cases h
      | cons b holds =>
        obtain ⟨hanswer, hrest⟩ := List.cons.inj h
        obtain ⟨hitems, hlength⟩ := ih hrest
        rw [filter_package, items_calls_append, items_append, met_package, hanswer, hitems]
        cases b with
        | false => simpa [outcome, came] using hlength
        | true => simpa [outcome, came] using hlength

theorem firstPackages_open {t : Timeline P} {f : Filter P} {n : Nat} (h : t.Open f n) :
    firstPackages n (t.filter f) = ⟨.ok (t.met f), (t.filter f).calls⟩ := by
  obtain ⟨holds, hverdicts, hcount⟩ := h
  obtain ⟨hitems, hlength⟩ := items_filter_of_verdicts hverdicts
  have hread := firstPackages_append hitems (hlength ▸ hcount) []
  obtain ⟨k, hk⟩ : ∃ k, n - (t.met f).length = k + 1 := ⟨n - (t.met f).length - 1, by omega⟩
  rw [List.append_nil, hk] at hread
  rw [hread]
  simp [firstPackages, next?, Answer.andThen, Answer.ofExcept, Except.map]

/-- What stands behind the item that settles it changes neither the answer nor the calls. -/
theorem firstPackages_settled {read : Timeline P} {f : Filter P} {n : Nat} (h : read.Settled f n) :
    ∃ result, ∀ rest,
      firstPackages n ((read ++ rest).filter f) = ⟨result, (read.filter f).calls⟩ := by
  obtain ⟨front, i, holds, verdict, rfl, hverdicts, hcount, hsettles⟩ := h
  obtain ⟨verdict', calls, g, hverdict, hitem⟩ := exists_filter_item (filterAfter f front) i
  rw [verdicts_append, hverdict] at hverdicts
  obtain ⟨hfront, hlast⟩ := List.append_inj' hverdicts rfl
  obtain rfl : verdict' = verdict := by simpa using hlast
  obtain ⟨hitems, hlength⟩ := items_filter_of_verdicts hfront
  have hs : (front.filter f ++ calls.map Event.call).items = (front.met f).map .ok := by
    rw [items_append, hitems, ← List.append_nil (calls.map Event.call), items_calls_append]
    exact List.append_nil _
  have hread : ∀ rest, (front ++ [Event.item i] ++ rest).filter f =
      (front.filter f ++ calls.map Event.call) ++ (outcome i verdict' ++ filter g rest) := by
    intro rest
    rw [List.append_assoc, filter_append, List.singleton_append, hitem, List.append_assoc]
  have hcalls : ((front ++ [Event.item i]).filter f).calls =
      (front.filter f ++ calls.map Event.call).calls := by
    rw [← List.append_nil (front ++ [Event.item i]), hread, calls_append, calls_append (outcome ..),
      calls_outcome]
    exact List.append_nil _
  rw [hcalls]
  rcases hsettles with ⟨e, rfl⟩ | ⟨rfl, hlast⟩
  · obtain ⟨k, hk⟩ : ∃ k, n - (front.met f).length = k + 1 :=
      ⟨n - (front.met f).length - 1, by omega⟩
    refine ⟨.error e, fun rest => ?_⟩
    rw [hread, firstPackages_append hs (hlength ▸ hcount), hk]
    exact congrArg (Answer.mk _) (List.append_nil _)
  · have hk : n - (front.met f).length = 0 + 1 := by omega
    refine ⟨(i.map ([·])).map (front.met f ++ ·), fun rest => ?_⟩
    rw [hread, firstPackages_append hs (hlength ▸ hcount), hk]
    cases i with
    | error e => exact congrArg (Answer.mk _) (List.append_nil _)
    | ok p => exact congrArg (Answer.mk _) (List.append_nil _)

theorem StopsAt.call {t read : Timeline P} {f : Filter P} {n : Nat} (h : t.StopsAt f n read)
    (c : Call P) : StopsAt (.call c :: t) f n (.call c :: read) := by
  rcases h with ⟨hopen, rfl⟩ | ⟨⟨front, i, holds, verdict, rfl, hsettled⟩, hprefix⟩
  · exact .inl ⟨hopen, rfl⟩
  · exact .inr ⟨⟨.call c :: front, i, holds, verdict, rfl, hsettled⟩,
      (List.prefix_cons_inj _).mpr hprefix⟩

theorem StopsAt.package {t read : Timeline P} {f : Filter P} {p : P} {b : Bool} {m n : Nat}
    (hanswer : (f.inspect p).answer = .ok b) (hn : n = m + [b].count true)
    (h : t.StopsAt (f.inspect p).asked m read) :
    StopsAt (.item (.ok p) :: t) f n (.item (.ok p) :: read) := by
  have hcount : ∀ holds : List Bool, (b :: holds).count true = holds.count true + [b].count true :=
    fun holds => by rw [← List.singleton_append, List.count_append, Nat.add_comm]
  rcases h with ⟨⟨holds, hverdicts, hopen⟩, rfl⟩ |
    ⟨⟨front, i, holds, verdict, rfl, hverdicts, hopen, hsettles⟩, hprefix⟩
  · refine .inl ⟨⟨b :: holds, ?_, ?_⟩, rfl⟩
    · rw [verdicts, hanswer, hverdicts, List.map_cons]
    · rw [hcount]
      omega
  · refine .inr ⟨⟨.item (.ok p) :: front, i, b :: holds, verdict, rfl, ?_, ?_, ?_⟩,
      (List.prefix_cons_inj _).mpr hprefix⟩
    · rw [verdicts, hanswer, hverdicts, List.map_cons, List.cons_append]
    · rw [hcount]
      omega
    · rw [hcount]
      exact hsettles.imp_right fun ⟨hverdict, hlast⟩ => ⟨hverdict, by omega⟩

theorem StopsAt.first {i : Except Error P} {f : Filter P} {verdict : Except Error Bool} {n : Nat}
    (hn : 0 < n) (hverdict : verdicts f [.item i] = [verdict])
    (hsettles : (∃ e, verdict = .error e) ∨ verdict = .ok true ∧ n = 1) (t : Timeline P) :
    StopsAt (.item i :: t) f n [.item i] :=
  .inr ⟨⟨[], i, [], verdict, rfl, hverdict, hn, hsettles.imp_right fun h => ⟨h.1, h.2.symm⟩⟩,
    ⟨t, rfl⟩⟩

theorem verdicts_package {f : Filter P} {p : P} {verdict : Except Error Bool}
    (h : (f.inspect p).answer = verdict) : verdicts f [.item (.ok p)] = [verdict] :=
  congrArg (fun v => [v]) h

theorem exists_stopsAt (t : Timeline P) (f : Filter P) {n : Nat} (hn : 0 < n) :
    ∃ read, t.StopsAt f n read := by
  induction t generalizing f n with
  | nil => exact ⟨[], .inl ⟨⟨[], rfl, hn⟩, rfl⟩⟩
  | cons event t ih =>
    match event with
    | .call c =>
      obtain ⟨read, hread⟩ := ih f hn
      exact ⟨_, hread.call c⟩
    | .item (.error e) => exact ⟨_, .first hn rfl (.inl ⟨e, rfl⟩) t⟩
    | .item (.ok p) =>
      cases hanswer : (f.inspect p).answer with
      | error e => exact ⟨_, .first hn (verdicts_package hanswer) (.inl ⟨e, rfl⟩) t⟩
      | ok b =>
        by_cases hlast : b = true ∧ n = 1
        · obtain ⟨rfl, rfl⟩ := hlast
          exact ⟨_, .first hn (verdicts_package hanswer) (.inr ⟨rfl, rfl⟩) t⟩
        · have hm : 0 < n - [b].count true ∧ n = n - [b].count true + [b].count true := by
            cases b with
            | false => simpa using hn
            | true => simp at hlast ⊢; omega
          obtain ⟨read, hread⟩ := ih (f.inspect p).asked hm.1
          exact ⟨_, hread.package hanswer hm.2⟩

-- ---------------------------------------------------------------------------
-- Questions that read no further
-- ---------------------------------------------------------------------------

/-- The question is one about the first `n` packages that meet the filter. -/
def AsksFor (n : Nat) (ask : Timeline P → Filter P → Answer P α) : Prop :=
  ∃ verdict : List P → Except Error α, ∀ t f,
    ask t f = (firstPackages n (t.filter f)).andThen fun ps => .ofExcept (verdict ps)

theorem asksFor_contains : AsksFor 1 (fun (t : Timeline P) f => t.contains f) := by
  refine ⟨fun ps => .ok !ps.isEmpty, fun t f => ?_⟩
  rw [firstPackages, Answer.andThen_assoc]
  refine congrArg (Answer.andThen _) (funext fun next => ?_)
  cases next <;> rfl

theorem asksFor_isEmpty :
    AsksFor 1 (fun (t : Timeline P) f => (FilteredSet.mk t f).timeline.isEmpty) := by
  refine ⟨fun ps => .ok ps.isEmpty, fun t f => ?_⟩
  rw [firstPackages, Answer.andThen_assoc]
  refine congrArg (Answer.andThen _) (funext fun next => ?_)
  cases next <;> rfl

theorem asksFor_get : AsksFor 2 (fun (t : Timeline P) f => t.get f) := by
  refine ⟨fun ps => onlyOf (ps.map .ok), fun t f => ?_⟩
  rw [firstPackages, Answer.andThen_assoc]
  refine congrArg (Answer.andThen _) (funext fun next => ?_)
  rcases next with _ | ⟨p, rest⟩
  · rfl
  · rw [Answer.map_andThen, firstPackages, Answer.andThen_assoc]
    refine congrArg (Answer.andThen _) (funext fun next => ?_)
    cases next <;> rfl

/-- A question that reads no further than to the `n`th package that meets the filter: it calls what
the filter calls up to there, and its answer is the same whatever stands behind. A condition of the
filter is asked about those of the packages up to there that meet the conditions before it. -/
structure ShortCircuits (n : Nat) (ask : Timeline P → Filter P → Answer P α) : Prop where
  calls {t read : Timeline P} {f : Filter P} (h : t.StopsAt f n read) :
    (ask t f).calls = (read.filter f).calls
  replaced {read : Timeline P} {f : Filter P} (h : read.Settled f n) (rest rest' : Timeline P) :
    ask (read ++ rest) f = ask (read ++ rest') f
  watched {t read : Timeline P} {f g : Filter P} {q : Predicate P} {c : Condition P}
    {before : List (Condition P)} (h : t.StopsAt f n read) (hq : ∀ p, q.holds p = true)
    (hwatched : Watched q c before f.conditions g.conditions)
    (hf : q.label ∉ Condition.labelsAll f.conditions)
    (ht : ∀ call ∈ t.calls, call.label ≠ q.label) :
    (ask t g).result = (ask t f).result ∧
      (ask t g).calls.filter (·.label != q.label) = (ask t f).calls ∧
      (ask t g).calls.filter (·.label == q.label) = (read.met ⟨before⟩).map (Call.mk q.label)

theorem verdicts_watched {f g : Filter P} {q : Predicate P} {c : Condition P}
    {before : List (Condition P)} (hq : ∀ p, q.holds p = true)
    (h : Watched q c before f.conditions g.conditions) (t : Timeline P) :
    t.verdicts g = t.verdicts f := by
  induction t generalizing f g c before with
  | nil => rfl
  | cons event t ih =>
    match event with
    | .call _ => exact ih h
    | .item (.error e) => exact congrArg (Except.error e :: ·) (ih h)
    | .item (.ok p) =>
      have hseen := h.seen (hq p)
      obtain ⟨c', hasked⟩ := hseen.asked
      have hanswer : (g.inspect p).answer = (f.inspect p).answer := hseen.answer
      rw [verdicts, verdicts, hanswer,
        ih (f := (f.inspect p).asked) (g := (g.inspect p).asked) hasked]

theorem StopsAt.of_verdicts {f g : Filter P} (h : ∀ t : Timeline P, t.verdicts g = t.verdicts f)
    {t read : Timeline P} {n : Nat} (hstops : t.StopsAt f n read) : t.StopsAt g n read := by
  rw [StopsAt, Open, Settled, h, h]
  exact hstops

theorem StopsAt.isPrefix {f : Filter P} {t read : Timeline P} {n : Nat} (h : t.StopsAt f n read) :
    read <+: t := by
  rcases h with ⟨-, rfl⟩ | ⟨-, h⟩
  · exact List.prefix_rfl
  · exact h

theorem StopsAt.calls_firstPackages {f : Filter P} {t read : Timeline P} {n : Nat}
    (h : t.StopsAt f n read) : (firstPackages n (t.filter f)).calls = (read.filter f).calls := by
  rcases h with ⟨hopen, rfl⟩ | ⟨hsettled, rest, rfl⟩
  · rw [firstPackages_open hopen]
  · obtain ⟨result, hread⟩ := firstPackages_settled hsettled
    rw [hread]

theorem AsksFor.shortCircuits {n : Nat} {ask : Timeline P → Filter P → Answer P α}
    (hask : AsksFor n ask) : ShortCircuits n ask := by
  obtain ⟨verdict, hask⟩ := hask
  have hcalls : ∀ {t read : Timeline P} {f : Filter P}, t.StopsAt f n read →
      (ask t f).calls = (read.filter f).calls := by
    intro t read f h
    rw [hask, Answer.calls_andThen_ofExcept, h.calls_firstPackages]
  refine ⟨hcalls, ?_, ?_⟩
  · intro read f h rest rest'
    obtain ⟨result, hread⟩ := firstPackages_settled h
    rw [hask, hask, hread, hread]
  · intro t read f g q c before h hq hwatched hf ht
    have hread : ∀ call ∈ read.calls, call.label ≠ q.label := fun call hcall =>
      ht call ((h.isPrefix.sublist.filterMap _).mem hcall)
    rw [hcalls h, hcalls (h.of_verdicts (verdicts_watched hq hwatched))]
    refine ⟨?_, calls_filter_watched hq hwatched hf hread⟩
    have hresult :
        (firstPackages n (t.filter g)).result = (firstPackages n (t.filter f)).result := by
      rw [result_firstPackages, result_firstPackages, items_filter_watched hq hwatched]
    rw [hask, hask, Answer.andThen, Answer.andThen, hresult]
    cases (firstPackages n (t.filter f)).result <;> rfl

theorem met_empty (t : Timeline P) : t.met .empty = t.items.filterMap (·.toOption) := by
  induction t with
  | nil => rfl
  | cons event t ih =>
    match event with
    | .call _ | .item (.error _) => exact ih
    | .item (.ok p) =>
      rw [met_package]
      exact congrArg (p :: ·) ih

/-- Whether a set contains a package, whether it is empty behind a filter and which is the one
package are questions that read no further than they have to, and to narrow a set is to read
nothing of it and to ask nothing. -/
theorem short_circuits :
    (∀ (t : Timeline P) (f : Filter P) (n : Nat), 0 < n → ∃ read, t.StopsAt f n read) ∧
    ShortCircuits 1 (fun (t : Timeline P) f => t.contains f) ∧
    ShortCircuits 1 (fun (t : Timeline P) f => (FilteredSet.mk t f).timeline.isEmpty) ∧
    ShortCircuits 2 (fun (t : Timeline P) f => t.get f) ∧
    (∀ t : Timeline P, t.met .empty = t.items.filterMap (·.toOption)) ∧
    ∀ (s : FilteredSet P) (f : Filter P), (s.narrow f).source = s.source ∧
      (s.narrow f).filter.conditions = s.filter.conditions ++ f.conditions ∧
      (s.narrow f).timeline = s.timeline.filter f :=
  ⟨fun t f _ hn => t.exists_stopsAt f hn, asksFor_contains.shortCircuits,
    asksFor_isEmpty.shortCircuits, asksFor_get.shortCircuits, met_empty,
    fun s f => ⟨rfl, rfl, (s.source.filter_and s.filter f).symm⟩⟩

theorem short_circuits_missing :
    ∃ p q r : PackageRecord,
      let t := ofPackages [p, q, r]
      let f : Filter PackageRecord :=
        ⟨[.predicate ⟨0, fun s => s.key == q.key⟩, .attribute (.ofName "x") (.equals .none)]⟩
      t.StopsAt f 1 (ofPackages [p, q]) ∧ (t.contains f).calls = [⟨0, p⟩, ⟨0, q⟩] ∧
        ∀ rest, (ofPackages [p, q] ++ rest).contains f = t.contains f := by
  let v : Version := ⟨⟨['1'], rfl⟩, [], none, [], 0⟩
  let package (name : String) : PackageRecord := .bare ⟨some "a", name⟩ v
  refine ⟨package "p", package "q", package "r", ?_⟩
  intro t f
  have hmissing : AttributePath.resolve (.ofName "x") (package "q") =
      (.error (.attributeNotFound "x" ⟨some "a", "q"⟩), .ofName "x") :=
    AttributePath.resolve_of_unknown (Option.isNone_iff_eq_none.mp (by decide)) (by decide)
  have hattribute : Condition.inspect (package "q") (.attribute (.ofName "x") (.equals .none)) =
      ⟨.error (.attributeNotFound "x" ⟨some "a", "q"⟩), [],
        .attribute (.ofName "x") (.equals .none)⟩ := by
    rw [Condition.inspect, hmissing]
    rfl
  have hq : f.inspect (package "q") =
      ⟨.error (.attributeNotFound "x" ⟨some "a", "q"⟩), [⟨0, package "q"⟩], f⟩ := by
    have hmet : (Condition.inspect (package "q")
        (.predicate ⟨0, fun s => s.key == (package "q").key⟩)).answer = .ok true := rfl
    rw [Filter.inspect, Condition.inspectAll_cons_met hmet,
      Condition.inspectAll_cons_unmet (by simp [hattribute]), hattribute]
    rfl
  have hsettled : (ofPackages [package "p", package "q"]).Settled f 1 :=
    ⟨ofPackages [package "p"], .ok (package "q"), [false], _, rfl, rfl, by decide,
      .inl ⟨.attributeNotFound "x" ⟨some "a", "q"⟩, congrArg Inspection.answer hq⟩⟩
  have hstops : t.StopsAt f 1 (ofPackages [package "p", package "q"]) :=
    .inr ⟨hsettled, ofPackages [package "r"], rfl⟩
  obtain ⟨-, hcontains, -⟩ := short_circuits (P := PackageRecord)
  refine ⟨hstops, (hcontains.calls hstops).trans ?_,
    fun rest => hcontains.replaced hsettled rest _⟩
  change (filter f (.item (.ok (package "p")) :: .item (.ok (package "q")) :: [])).calls = _
  have hp : f.inspect (package "p") = ⟨.ok false, [⟨0, package "p"⟩], f⟩ := rfl
  rw [filter_package, hp, filter_package, hq]
  rfl

end Timeline

end PackageAlgebra
