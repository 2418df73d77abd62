import PackageAlgebra.Proofs.Query.Timeline

/-!
# Watching a condition

A predicate that always holds, put right before a condition, is called whenever
that condition is about to be asked, and changes nothing else. With its calls
one sees that a condition is asked about a package just if all conditions before
it held for the package, those around a nested filter included (`Watched.seen`).
So the packages that a condition is asked about are those that come through a
filter of the conditions before it (`calls_filter_watched`).
-/

namespace PackageAlgebra

variable {P : Type}

/-- The conditions `ds` are `cs` with the predicate `q` right before the condition `c`, which may
stand inside others; `before` are the conditions that come before it, outer ones first. -/
inductive Watched (q : Predicate P) (c : Condition P) : (before cs ds : List (Condition P)) → Prop
  | here (before after : List (Condition P)) :
      Watched q c before (before ++ c :: after) (before ++ .predicate q :: c :: after)
  | inside {before cs ds : List (Condition P)} (front after : List (Condition P))
      (h : Watched q c before cs ds) :
      Watched q c (front ++ before) (front ++ .all cs :: after) (front ++ .all ds :: after)

-- ---------------------------------------------------------------------------
-- The predicates of a condition
-- ---------------------------------------------------------------------------

namespace Condition

mutual

def labels : Condition P → List Nat
  | .atom _ | .attribute .. => []
  | .predicate q => [q.label]
  | .all conditions => labelsAll conditions

def labelsAll : List (Condition P) → List Nat
  | [] => []
  | condition :: rest => condition.labels ++ labelsAll rest

end

variable [Package P]

mutual

theorem labels_asked (p : P) : (c : Condition P) → (inspect p c).asked.labels = c.labels
  | .atom _ | .predicate _ | .attribute .. => rfl
  | .all cs => labelsAll_asked p cs

theorem labelsAll_asked (p : P) :
    (cs : List (Condition P)) → labelsAll (inspectAll p cs).asked = labelsAll cs
  | [] => rfl
  | c :: cs => by
    rw [inspectAll]
    split
    · simp only [labelsAll, labels_asked p c, labelsAll_asked p cs]
    · simp only [labelsAll, labels_asked p c]

end

mutual

theorem label_mem_labels {p : P} {call : Call P} : (c : Condition P) →
    call ∈ (inspect p c).calls → call.label ∈ c.labels
  | .atom _, h | .attribute .., h => nomatch h
  | .predicate q, h => by
    obtain rfl := List.mem_singleton.mp h
    exact List.mem_singleton_self q.label
  | .all cs, h => label_mem_labelsAll cs h

theorem label_mem_labelsAll {p : P} {call : Call P} : (cs : List (Condition P)) →
    call ∈ (inspectAll p cs).calls → call.label ∈ labelsAll cs
  | [], h => nomatch h
  | c :: cs, h => by
    rw [labelsAll, List.mem_append]
    rw [inspectAll] at h
    split at h
    · exact (List.mem_append.mp h).imp (label_mem_labels c) (label_mem_labelsAll cs)
    · exact .inl (label_mem_labels c h)

end

end Condition

-- ---------------------------------------------------------------------------
-- One package
-- ---------------------------------------------------------------------------

section

variable [Package P] {q : Predicate P} {c : Condition P} {before cs ds : List (Condition P)}

open Condition

/-- Conditions that are asked and those with a watch among them: the answer is the same, the watch
stays in its place, and it is called if the conditions before it hold, as the last before the
condition that it watches. -/
structure Watched.Seen (q : Predicate P) (c : Condition P) (p : P)
    (before cs ds : List (Condition P)) : Prop where
  answer : (inspectAll p ds).answer = (inspectAll p cs).answer
  asked : ∃ c', Watched q c' (inspectAll p before).asked (inspectAll p cs).asked
    (inspectAll p ds).asked
  called : (inspectAll p before).answer = .ok true →
    ∃ rest, (inspectAll p cs).calls = (inspectAll p before).calls ++ ((inspect p c).calls ++ rest) ∧
      (inspectAll p ds).calls =
        (inspectAll p before).calls ++ ⟨q.label, p⟩ :: ((inspect p c).calls ++ rest)
  uncalled : (inspectAll p before).answer ≠ .ok true →
    (inspectAll p ds).calls = (inspectAll p cs).calls

theorem Condition.inspectAll_cons_met {p : P} (h : (inspect p c).answer = .ok true)
    (cs : List (Condition P)) :
    inspectAll p (c :: cs) =
      ⟨(inspectAll p cs).answer, (inspect p c).calls ++ (inspectAll p cs).calls,
        (inspect p c).asked :: (inspectAll p cs).asked⟩ := by
  rw [inspectAll_cons, Inspection.andThen_met h]
  rfl

theorem Condition.inspectAll_cons_unmet {p : P} (h : (inspect p c).answer ≠ .ok true)
    (cs : List (Condition P)) :
    inspectAll p (c :: cs) =
      ⟨(inspect p c).answer, (inspect p c).calls, (inspect p c).asked :: cs⟩ := by
  rw [inspectAll_cons, Inspection.andThen_unmet h]
  rfl

theorem Condition.inspectAll_append_met {p : P} (h : (inspectAll p cs).answer = .ok true)
    (ds : List (Condition P)) :
    inspectAll p (cs ++ ds) =
      ⟨(inspectAll p ds).answer, (inspectAll p cs).calls ++ (inspectAll p ds).calls,
        (inspectAll p cs).asked ++ (inspectAll p ds).asked⟩ := by
  rw [inspectAll_append, Inspection.andThen_met h]
  rfl

theorem Condition.inspectAll_append_unmet {p : P} (h : (inspectAll p cs).answer ≠ .ok true)
    (ds : List (Condition P)) :
    inspectAll p (cs ++ ds) =
      ⟨(inspectAll p cs).answer, (inspectAll p cs).calls, (inspectAll p cs).asked ++ ds⟩ := by
  rw [inspectAll_append, Inspection.andThen_unmet h]
  rfl

theorem Condition.exists_behind (p : P) (c : Condition P) (cs : List (Condition P)) :
    ∃ calls asked, inspectAll p (c :: cs) =
      ⟨(inspectAll p (c :: cs)).answer, (inspect p c).calls ++ calls,
        (inspect p c).asked :: asked⟩ := by
  by_cases h : (inspect p c).answer = .ok true
  · exact ⟨_, _, by rw [inspectAll_cons_met h]⟩
  · exact ⟨[], cs, by rw [inspectAll_cons_unmet h, List.append_nil]⟩

theorem Condition.exists_behind_nested {p : P}
    (h : (inspectAll p ds).answer = (inspectAll p cs).answer) (after : List (Condition P)) :
    ∃ answer calls asked,
      inspectAll p (.all cs :: after) =
        ⟨answer, (inspectAll p cs).calls ++ calls, .all (inspectAll p cs).asked :: asked⟩ ∧
      inspectAll p (.all ds :: after) =
        ⟨answer, (inspectAll p ds).calls ++ calls, .all (inspectAll p ds).asked :: asked⟩ := by
  by_cases hmet : (inspectAll p cs).answer = .ok true
  · have hcs : (inspect p (.all cs)).answer = .ok true := hmet
    have hds : (inspect p (.all ds)).answer = .ok true := h.trans hmet
    exact ⟨_, _, _, inspectAll_cons_met hcs after, inspectAll_cons_met hds after⟩
  · have hcs : (inspect p (.all cs)).answer ≠ .ok true := hmet
    have hds : (inspect p (.all ds)).answer ≠ .ok true := h ▸ hmet
    refine ⟨(inspectAll p cs).answer, [], after, ?_, ?_⟩
    · rw [inspectAll_cons_unmet hcs, List.append_nil]
      rfl
    · rw [inspectAll_cons_unmet hds, List.append_nil, ← h]
      rfl

theorem Watched.seen_here (p : P) (hq : q.holds p = true) (c : Condition P)
    (before after : List (Condition P)) :
    Seen q c p before (before ++ c :: after) (before ++ .predicate q :: c :: after) := by
  have hwatch : (inspect p (.predicate q)).answer = .ok true := congrArg Except.ok hq
  obtain ⟨calls, asked, hc⟩ := exists_behind p c after
  by_cases h : (inspectAll p before).answer = .ok true
  · have hcs := inspectAll_append_met h (c :: after)
    have hds := inspectAll_append_met h (.predicate q :: c :: after)
    rw [inspectAll_cons_met hwatch] at hds
    rw [hc] at hcs hds
    constructor
    · rw [hcs, hds]
    · rw [hcs, hds]
      exact ⟨_, .here _ _⟩
    · intro _
      exact ⟨calls, by rw [hcs], by rw [hds]; rfl⟩
    · exact fun hunmet => absurd h hunmet
  · have hcs := inspectAll_append_unmet h (c :: after)
    have hds := inspectAll_append_unmet h (.predicate q :: c :: after)
    constructor
    · rw [hcs, hds]
    · rw [hcs, hds]
      exact ⟨c, .here _ _⟩
    · exact fun hmet => absurd hmet h
    · intro _
      rw [hcs, hds]

theorem Watched.Seen.inside {p : P} (hseen : Seen q c p before cs ds)
    (front after : List (Condition P)) (h : Watched q c before cs ds) :
    Seen q c p (front ++ before) (front ++ .all cs :: after) (front ++ .all ds :: after) := by
  by_cases hfront : (inspectAll p front).answer = .ok true
  · have hbefore := inspectAll_append_met hfront before
    have hcs := inspectAll_append_met hfront (.all cs :: after)
    have hds := inspectAll_append_met hfront (.all ds :: after)
    obtain ⟨answer, calls, asked, hcs', hds'⟩ := exists_behind_nested hseen.answer after
    rw [hcs'] at hcs
    rw [hds'] at hds
    constructor
    · rw [hcs, hds]
    · obtain ⟨c', hasked⟩ := hseen.asked
      rw [hbefore, hcs, hds]
      exact ⟨c', hasked.inside _ _⟩
    · intro hmet
      rw [hbefore] at hmet ⊢
      obtain ⟨rest, hrest, hrest'⟩ := hseen.called hmet
      refine ⟨rest ++ calls, ?_, ?_⟩
      · rw [hcs, hrest]
        simp only [List.append_assoc]
      · rw [hds, hrest']
        simp only [List.append_assoc, List.cons_append]
    · intro hunmet
      rw [hbefore] at hunmet
      rw [hcs, hds, hseen.uncalled hunmet]
  · have hbefore := inspectAll_append_unmet hfront before
    have hcs := inspectAll_append_unmet hfront (.all cs :: after)
    have hds := inspectAll_append_unmet hfront (.all ds :: after)
    constructor
    · rw [hcs, hds]
    · rw [hbefore, hcs, hds]
      exact ⟨c, h.inside _ _⟩
    · intro hall
      rw [hbefore] at hall
      exact absurd hall hfront
    · intro _
      rw [hcs, hds]

theorem Watched.seen {p : P} (hq : q.holds p = true) (h : Watched q c before cs ds) :
    Seen q c p before cs ds := by
  induction h with
  | here before after => exact seen_here p hq c before after
  | inside front after h ih => exact ih.inside front after h

end

-- ---------------------------------------------------------------------------
-- A timeline
-- ---------------------------------------------------------------------------

namespace Timeline

theorem calls_append (s t : Timeline P) : calls (s ++ t) = calls s ++ calls t :=
  List.filterMap_append

theorem items_append (s t : Timeline P) : items (s ++ t) = items s ++ items t :=
  List.filterMap_append

@[simp] theorem calls_call (c : Call P) (t : Timeline P) : calls (.call c :: t) = c :: calls t :=
  rfl

@[simp] theorem calls_item (i : Except Error P) (t : Timeline P) :
    calls (.item i :: t) = calls t :=
  rfl

@[simp] theorem calls_calls_append (cs : List (Call P)) (t : Timeline P) :
    calls (cs.map .call ++ t) = cs ++ calls t := by
  induction cs with
  | nil => rfl
  | cons c cs ih => exact congrArg (c :: ·) ih

def outcome (i : Except Error P) : Except Error Bool → Timeline P
  | .ok true => [.item i]
  | .ok false => []
  | .error e => [.item (.error e)]

@[simp] theorem calls_outcome (i : Except Error P) (answer : Except Error Bool) :
    (outcome i answer).calls = [] := by
  cases answer with
  | error e => rfl
  | ok holds => cases holds <;> rfl

def came (p : P) : Except Error Bool → List P
  | .ok true => [p]
  | _ => []

theorem came_of_ne {p : P} {answer : Except Error Bool} (h : answer ≠ .ok true) :
    came p answer = [] := by
  rw [came]
  exact fun hmet => absurd hmet h

theorem filter_label_of_ne {label : Nat} {calls : List (Call P)}
    (h : ∀ call ∈ calls, call.label ≠ label) :
    calls.filter (·.label != label) = calls ∧ calls.filter (·.label == label) = [] := by
  constructor
  · exact List.filter_eq_self.mpr fun call hcall => by simpa using h call hcall
  · exact List.filter_eq_nil_iff.mpr fun call hcall => by simpa using h call hcall

variable [Package P]

theorem filter_package (f : Filter P) (p : P) (t : Timeline P) :
    filter f (.item (.ok p) :: t) =
      (f.inspect p).calls.map .call ++
        (outcome (.ok p) (f.inspect p).answer ++ filter (f.inspect p).asked t) := by
  rw [filter]
  split <;> simp_all [outcome]

/-- The packages that meet the filter. -/
def met (f : Filter P) (t : Timeline P) : List P :=
  (t.filter f).items.filterMap (·.toOption)

theorem met_package (f : Filter P) (p : P) (t : Timeline P) :
    met f (.item (.ok p) :: t) = came p (f.inspect p).answer ++ met (f.inspect p).asked t := by
  rw [met, filter_package, items_calls_append, items_append, List.filterMap_append]
  congr 1
  cases (f.inspect p).answer with
  | error e => rfl
  | ok holds => cases holds <;> rfl

variable {q : Predicate P} {c : Condition P} {before : List (Condition P)} {f g : Filter P}

section

variable (hq : ∀ p, q.holds p = true)

include hq

/-- The calls about one package: those of the watch are told apart by their label, and there is
one if the package meets the conditions before the watch. -/
theorem calls_inspect_watched (h : Watched q c before f.conditions g.conditions)
    (hnew : q.label ∉ Condition.labelsAll f.conditions) (p : P) :
    (g.inspect p).calls.filter (·.label != q.label) = (f.inspect p).calls ∧
      (g.inspect p).calls.filter (·.label == q.label) =
        (came p ((Filter.mk before).inspect p).answer).map (Call.mk q.label) := by
  have hother : ∀ call ∈ (f.inspect p).calls, call.label ≠ q.label := fun call hcall heq =>
    hnew (heq ▸ Condition.label_mem_labelsAll f.conditions hcall)
  have hseen := h.seen (hq p)
  by_cases hmet : (Condition.inspectAll p before).answer = .ok true
  · obtain ⟨rest, hf, hg⟩ := hseen.called hmet
    have hf' : (f.inspect p).calls = _ := hf
    have hg' : (g.inspect p).calls = _ := hg
    have hanswer : ((Filter.mk before).inspect p).answer = .ok true := hmet
    rw [hf'] at hother ⊢
    obtain ⟨hfront, hbehind⟩ := List.forall_mem_append.mp hother
    rw [hg', hanswer, List.filter_append, List.filter_append]
    simp [filter_label_of_ne hfront, filter_label_of_ne hbehind, came]
  · have hcalls : (g.inspect p).calls = (f.inspect p).calls := hseen.uncalled hmet
    have hanswer : ((Filter.mk before).inspect p).answer ≠ .ok true := hmet
    rw [hcalls, came_of_ne hanswer]
    exact filter_label_of_ne hother

theorem items_filter_watched (h : Watched q c before f.conditions g.conditions) (t : Timeline P) :
    (t.filter g).items = (t.filter f).items := by
  induction t generalizing f g c before with
  | nil => rfl
  | cons event t ih =>
    match event with
    | .call _ => exact ih h
    | .item (.error e) => exact congrArg (Except.error e :: ·) (ih h)
    | .item (.ok p) =>
      have hseen := h.seen (hq p)
      obtain ⟨c', hasked⟩ := hseen.asked
      have hanswer : (g.inspect p).answer = (f.inspect p).answer := hseen.answer
      rw [filter_package, filter_package, items_calls_append, items_calls_append, items_append,
        items_append, hanswer, ih (f := (f.inspect p).asked) (g := (g.inspect p).asked) hasked]

/-- The calls of a filter with a watch in it: those of the filter without it, and one of the watch
for each package that meets the conditions before it. -/
theorem calls_filter_watched (h : Watched q c before f.conditions g.conditions)
    (hnew : q.label ∉ Condition.labelsAll f.conditions) {t : Timeline P}
    (ht : ∀ call ∈ t.calls, call.label ≠ q.label) :
    (t.filter g).calls.filter (·.label != q.label) = (t.filter f).calls ∧
      (t.filter g).calls.filter (·.label == q.label) =
        (met ⟨before⟩ t).map (Call.mk q.label) := by
  induction t generalizing f g c before with
  | nil => exact ⟨rfl, rfl⟩
  | cons event t ih =>
    match event with
    | .call call =>
      rw [calls_call, List.forall_mem_cons] at ht
      obtain ⟨hfirst, hrest⟩ := ht
      obtain ⟨hothers, hwatch⟩ := ih h hnew hrest
      constructor
      · rw [filter, filter, calls_call, calls_call, List.filter_cons_of_pos (by simpa using hfirst),
          hothers]
      · rw [filter, calls_call, List.filter_cons_of_neg (by simpa using hfirst), hwatch]
        rfl
    | .item (.error e) => exact ih h hnew ht
    | .item (.ok p) =>
      have hseen := h.seen (hq p)
      obtain ⟨c', hasked⟩ := hseen.asked
      have hanswer : (g.inspect p).answer = (f.inspect p).answer := hseen.answer
      have hnew' : q.label ∉ Condition.labelsAll (f.inspect p).asked.conditions := by
        rwa [show Condition.labelsAll (f.inspect p).asked.conditions = _ from
          Condition.labelsAll_asked p f.conditions]
      have hasked' : Watched q c' ((Filter.mk before).inspect p).asked.conditions
          (f.inspect p).asked.conditions (g.inspect p).asked.conditions := hasked
      obtain ⟨hothers, hwatch⟩ := ih hasked' hnew' ht
      obtain ⟨hothers', hwatch'⟩ := calls_inspect_watched hq h hnew p
      constructor
      · rw [filter_package, filter_package, calls_calls_append, calls_calls_append, calls_append,
          calls_append, calls_outcome, calls_outcome, List.nil_append, List.nil_append,
          List.filter_append, hothers, hothers']
      · rw [filter_package, calls_calls_append, calls_append, calls_outcome,
          List.nil_append, List.filter_append, hwatch, hwatch', met_package, List.map_append]

end

end Timeline

end PackageAlgebra
