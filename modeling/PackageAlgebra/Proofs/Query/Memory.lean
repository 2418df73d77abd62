import PackageAlgebra.Proofs.Query.AttributePath
import PackageAlgebra.Proofs.Query.Timeline

/-!
# What filters remember

On records what a filter remembers changes no answer and no call: asking
conditions that remember something is asking the same conditions anew
(`inspect_forget`), one package and then a whole timeline at a time.
-/

namespace PackageAlgebra

variable {P : Type}

-- ---------------------------------------------------------------------------
-- Forgetting
-- ---------------------------------------------------------------------------

namespace Condition

mutual

/-- The condition as it was made, with nothing remembered. -/
def forget : Condition P → Condition P
  | .atom a => .atom a
  | .attribute path test => .attribute (.ofName path.name) test
  | .predicate q => .predicate q
  | .all conditions => .all (forgetAll conditions)

def forgetAll : List (Condition P) → List (Condition P)
  | [] => []
  | condition :: rest => condition.forget :: forgetAll rest

end

mutual

theorem forget_forget : (c : Condition P) → c.forget.forget = c.forget
  | .atom _ | .attribute .. | .predicate _ => rfl
  | .all cs => congrArg all (forgetAll_forgetAll cs)

theorem forgetAll_forgetAll : (cs : List (Condition P)) → forgetAll (forgetAll cs) = forgetAll cs
  | [] => rfl
  | c :: cs => by
    rw [forgetAll, forgetAll, forget_forget c, forgetAll_forgetAll cs]

end

variable [Package P]

mutual

theorem forget_asked (p : P) : (c : Condition P) → (inspect p c).asked.forget = c.forget
  | .atom _ | .predicate _ => rfl
  | .attribute path test => by
    show Condition.attribute (.ofName (path.resolve p).2.name) test = _
    rw [AttributePath.name_resolve]
    rfl
  | .all cs => congrArg all (forgetAll_asked p cs)

theorem forgetAll_asked (p : P) :
    (cs : List (Condition P)) → forgetAll (inspectAll p cs).asked = forgetAll cs
  | [] => rfl
  | c :: cs => by
    rw [inspectAll]
    split
    · simp only [forgetAll, forget_asked p c, forgetAll_asked p cs]
    · simp only [forgetAll, forget_asked p c]

end

-- ---------------------------------------------------------------------------
-- Conditions on records
-- ---------------------------------------------------------------------------

mutual

/-- What the keywords of the condition remember are paths that they may mean. -/
def Justified : Condition PackageRecord → Prop
  | .attribute path _ => path.Justified
  | .all conditions => JustifiedAll conditions
  | .atom _ | .predicate _ => True

def JustifiedAll : List (Condition PackageRecord) → Prop
  | [] => True
  | condition :: rest => condition.Justified ∧ JustifiedAll rest

end

mutual

theorem justified_forget : (c : Condition PackageRecord) → c.forget.Justified
  | .atom _ | .predicate _ => trivial
  | .attribute path _ => AttributePath.justified_ofName path.name
  | .all cs => justified_forgetAll cs

theorem justified_forgetAll : (cs : List (Condition PackageRecord)) → JustifiedAll (forgetAll cs)
  | [] => trivial
  | c :: cs => ⟨justified_forget c, justified_forgetAll cs⟩

end

mutual

theorem justified_asked (r : PackageRecord) :
    (c : Condition PackageRecord) → c.Justified → (inspect r c).asked.Justified
  | .atom _, _ | .predicate _, _ => trivial
  | .attribute _ _, h => AttributePath.Justified.resolve h r
  | .all cs, h => justified_askedAll r cs h

theorem justified_askedAll (r : PackageRecord) :
    (cs : List (Condition PackageRecord)) → JustifiedAll cs → JustifiedAll (inspectAll r cs).asked
  | [], _ => trivial
  | c :: cs, h => by
    rw [inspectAll]
    split
    · exact ⟨justified_asked r c h.1, justified_askedAll r cs h.2⟩
    · exact ⟨justified_asked r c h.1, h.2⟩

end

mutual

/-- The same answer and the same calls as without what the condition remembers. -/
theorem inspect_forget (r : PackageRecord) : (c : Condition PackageRecord) → c.Justified →
    (inspect r c).map forget = (inspect r c.forget).map forget
  | .atom _, _ | .predicate _, _ => rfl
  | .attribute path test, h => by
    have hvalue : (path.resolve r).1 = ((AttributePath.ofName path.name).resolve r).1 :=
      AttributePath.Justified.resolve_eq h r
    simp [inspect, Inspection.map, forget, hvalue, AttributePath.ofName]
  | .all cs, h => by
    have hall := congrArg (Inspection.map all) (inspectAll_forgetAll r cs h)
    exact hall

theorem inspectAll_forgetAll (r : PackageRecord) :
    (cs : List (Condition PackageRecord)) → JustifiedAll cs →
      (inspectAll r cs).map forgetAll = (inspectAll r (forgetAll cs)).map forgetAll
  | [], _ => rfl
  | c :: cs, h => by
    -- the first condition and the others forget apart
    have hsplit : ∀ (c : Condition PackageRecord) (cs : List (Condition PackageRecord)),
        (inspectAll r (c :: cs)).map forgetAll =
          (((inspect r c).map forget).andThen (forgetAll cs)
            ((inspectAll r cs).map forgetAll)).map fun (c, cs) => c :: cs := by
      intro c cs
      rw [Inspection.andThen_map, inspectAll_cons]
      rfl
    rw [hsplit, forgetAll, hsplit, inspect_forget r c h.1, inspectAll_forgetAll r cs h.2,
      forgetAll_forgetAll]

end

end Condition

-- ---------------------------------------------------------------------------
-- Filters
-- ---------------------------------------------------------------------------

namespace Filter

def forget (f : Filter P) : Filter P :=
  ⟨Condition.forgetAll f.conditions⟩

def Justified (f : Filter PackageRecord) : Prop :=
  Condition.JustifiedAll f.conditions

theorem forget_asked [Package P] (f : Filter P) (p : P) : (f.inspect p).asked.forget = f.forget :=
  congrArg mk (Condition.forgetAll_asked p f.conditions)

theorem justified_forget (f : Filter PackageRecord) : f.forget.Justified :=
  Condition.justified_forgetAll f.conditions

theorem Justified.asked {f : Filter PackageRecord} (h : f.Justified) (r : PackageRecord) :
    (f.inspect r).asked.Justified :=
  Condition.justified_askedAll r f.conditions h

theorem Justified.inspect_forget {f : Filter PackageRecord} (h : f.Justified) (r : PackageRecord) :
    (f.inspect r).map forget = (f.forget.inspect r).map forget :=
  congrArg (Inspection.map mk) (Condition.inspectAll_forgetAll r f.conditions h)

end Filter

namespace Timeline

/-- Filters that differ in nothing but what they remember make one timeline. -/
theorem filter_eq_of_forget_eq {f g : Filter PackageRecord} (hf : f.Justified) (hg : g.Justified)
    (h : f.forget = g.forget) (t : Timeline PackageRecord) : t.filter f = t.filter g := by
  induction t generalizing f g with
  | nil => rfl
  | cons event t ih =>
    match event with
    | .call c => exact congrArg (Event.call c :: ·) (ih hf hg h)
    | .item (.error e) => exact congrArg (Event.item (.error e) :: ·) (ih hf hg h)
    | .item (.ok r) =>
      have hinspect : (f.inspect r).map Filter.forget = (g.inspect r).map Filter.forget := by
        rw [hf.inspect_forget, hg.inspect_forget, h]
      obtain ⟨hanswer, hcalls, hasked⟩ := Inspection.mk.inj hinspect
      have hrest : filter (f.inspect r).asked t = filter (g.inspect r).asked t :=
        ih (hf.asked r) (hg.asked r) hasked
      rw [filter, filter, hrest, hanswer, hcalls]

theorem forget_filterAfter [Package P] (f : Filter P) (t : Timeline P) :
    (filterAfter f t).forget = f.forget := by
  induction t generalizing f with
  | nil => rfl
  | cons event t ih =>
    match event with
    | .call _ | .item (.error _) => exact ih f
    | .item (.ok p) => exact (ih _).trans (f.forget_asked p)

theorem justified_filterAfter {f : Filter PackageRecord} (h : f.Justified)
    (t : Timeline PackageRecord) : (filterAfter f t).Justified := by
  induction t generalizing f with
  | nil => exact h
  | cons event t ih =>
    match event with
    | .call _ | .item (.error _) => exact ih h
    | .item (.ok r) => exact ih (h.asked r)

theorem filter_filterAfter (f : Filter PackageRecord) (history t : Timeline PackageRecord) :
    t.filter (filterAfter f.forget history) = t.filter f.forget := by
  have hnew := f.justified_forget
  exact filter_eq_of_forget_eq (justified_filterAfter hnew history) hnew
    (forget_filterAfter f.forget history) t

end Timeline

namespace PackageRecord

open AttributePath (ofName)

/-- Asked about record after record, a keyword answers each time with what it names on the record
at hand, and a filter that went through other sets before goes through a set as a new one does. -/
theorem keywords_history_free :
    (∀ (name : String) (rs : List PackageRecord),
      (ofName name).answers rs = rs.map fun r => ((ofName name).resolve r).1) ∧
    (∀ (name : String) (r : PackageRecord) (a : Except Error Value),
      ((ofName name).resolve r).1 = a ↔ r.Names name a) ∧
    (∀ rest ≠ "", ∀ r : PackageRecord,
      r.Names ("metadata_" ++ rest) (match r.metadata.get? rest with
        | some text => .ok (.text text)
        | none => .error (.attributeNotFound ("metadata_" ++ rest) r.key))) ∧
    ∀ (f : Filter PackageRecord) (history t : Timeline PackageRecord),
      t.filter (Timeline.filterAfter f.forget history) = t.filter f.forget := by
  refine ⟨?_, AttributePath.result_resolve_ofName_iff, ?_, Timeline.filter_filterAfter⟩
  · intro name rs
    exact (AttributePath.justified_ofName name).answers rs
  · intro rest hrest r
    exact names_metadata hrest r

theorem keywords_history_free_variable :
    ∃ v : Version,
      let r := { bare ⟨some "a", "b"⟩ v with metadata := .ofList [("HOME_PAGE.X", "x")] }
      let s := bare ⟨none, "c"⟩ v
      (ofName "metadata_HOME_PAGE.X").answers [r, s, r] =
        [.ok (.text "x"), .error (.attributeNotFound "metadata_HOME_PAGE.X" ⟨none, "c"⟩),
          .ok (.text "x")] := by
  refine ⟨⟨⟨['1'], rfl⟩, [], none, [], 0⟩, ?_⟩
  intro r s
  obtain ⟨hanswers, hnames, hmetadata, -⟩ := keywords_history_free
  have hr : ((ofName "metadata_HOME_PAGE.X").resolve r).1 = .ok (.text "x") :=
    (hnames _ r _).mpr (hmetadata "HOME_PAGE.X" (by decide) r)
  have hs : ((ofName "metadata_HOME_PAGE.X").resolve s).1 =
      .error (.attributeNotFound "metadata_HOME_PAGE.X" ⟨none, "c"⟩) :=
    (hnames _ s _).mpr (hmetadata "HOME_PAGE.X" (by decide) s)
  rw [hanswers, List.map_cons, List.map_cons, List.map_cons, List.map_nil, hr, hs]

end PackageRecord

end PackageAlgebra
