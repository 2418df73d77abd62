import PackageAlgebra.Depend.Tree

/-!
# What a tree asks for

Evaluation puts the members of a conditional block in the place of the block,
which makes no difference to a parent that asks for all its members. A parent
that counts them can tell the difference, so no conditional may stand in it
directly.
-/

namespace PackageAlgebra

/-- Whether members with these verdicts are what the group asks for. -/
def GroupKind.admits (kind : GroupKind) (verdicts : List Bool) : Bool :=
  match kind with
  | .allOf => verdicts.all id
  | .anyOf => verdicts.any id
  | .exactlyOne => verdicts.count true == 1
  | .atMostOne => verdicts.count true ≤ 1

namespace Dep

mutual

/-- Whether a node is met if these leaves are. The block of a conditional that does not count asks
for nothing. -/
def holds (met : α → Bool) (applied : String → Bool) : Dep α → Bool
  | .leaf a => met a
  | .group kind children => kind.admits (verdicts met applied children)
  | .conditional flag negated children =>
    if negated != applied flag then (verdicts met applied children).all id else true

def verdicts (met : α → Bool) (applied : String → Bool) : List (Dep α) → List Bool
  | [] => []
  | node :: nodes => holds met applied node :: verdicts met applied nodes

end

def isConditional : Dep α → Bool
  | .conditional .. => true
  | _ => false

mutual

/-- No conditional stands directly in a group that counts its members. One that stands there
within other conditionals has the outermost of them there. -/
def blocksConjoined : Dep α → Bool
  | .leaf _ => true
  | .group kind children =>
    (kind == .allOf || !children.any isConditional) && allBlocksConjoined children
  | .conditional _ _ children => allBlocksConjoined children

def allBlocksConjoined : List (Dep α) → Bool
  | [] => true
  | node :: nodes => blocksConjoined node && allBlocksConjoined nodes

end

theorem verdicts_append (met : α → Bool) (applied : String → Bool) (as bs : List (Dep α)) :
    verdicts met applied (as ++ bs) = verdicts met applied as ++ verdicts met applied bs := by
  induction as with
  | nil => rfl
  | cons a as ih => rw [List.cons_append, verdicts, verdicts, ih, List.cons_append]

variable {α : Type} {met : α → Bool} {applied other : String → Bool}

/-- A group that resolves as it should: asked as a conjunction always, and member by member if
none of the members is a conditional. -/
theorem holds_group {kind : GroupKind} {children resolved : List (Dep α)}
    (hall : (verdicts met other resolved).all id = (verdicts met applied children).all id)
    (heach : children.any isConditional = false →
      verdicts met other resolved = verdicts met applied children)
    (h : (kind == .allOf || !children.any isConditional) = true) :
    holds met other (.group kind resolved) = holds met applied (.group kind children) := by
  rw [holds, holds]
  cases hkind : kind == .allOf with
  | true =>
    obtain rfl := eq_of_beq hkind
    exact hall
  | false =>
    rw [hkind, Bool.false_or, Bool.not_eq_true'] at h
    rw [heach h]

mutual

theorem verdicts_resolve : (node : Dep α) → blocksConjoined node = true →
    (verdicts met other (resolve applied node)).all id = holds met applied node ∧
      (isConditional node = false →
        verdicts met other (resolve applied node) = [holds met applied node])
  | .leaf a, _ => ⟨Bool.and_true _, fun _ => rfl⟩
  | .group kind children, h => by
    rw [blocksConjoined, Bool.and_eq_true] at h
    obtain ⟨hall, heach⟩ := verdicts_resolveAll children h.2
    have hgroup := holds_group hall heach h.1
    rw [resolve, verdicts, verdicts, hgroup]
    exact ⟨Bool.and_true _, fun _ => rfl⟩
  | .conditional flag negated children, h => by
    obtain ⟨hall, -⟩ := verdicts_resolveAll children h
    refine ⟨?_, fun hno => nomatch hno⟩
    rw [resolve, holds]
    split
    · exact hall
    · rfl

theorem verdicts_resolveAll : (nodes : List (Dep α)) → allBlocksConjoined nodes = true →
    (verdicts met other (resolveAll applied nodes)).all id =
        (verdicts met applied nodes).all id ∧
      (nodes.any isConditional = false →
        verdicts met other (resolveAll applied nodes) = verdicts met applied nodes)
  | [], _ => ⟨rfl, fun _ => rfl⟩
  | node :: nodes, h => by
    rw [allBlocksConjoined, Bool.and_eq_true] at h
    obtain ⟨hall, heach⟩ := verdicts_resolve node h.1
    obtain ⟨hrestAll, hrestEach⟩ := verdicts_resolveAll nodes h.2
    rw [resolveAll, verdicts_append]
    constructor
    · rw [List.all_append, hall, hrestAll]
      rfl
    · intro hno
      rw [List.any_cons, Bool.or_eq_false_iff] at hno
      rw [heach hno.1, hrestEach hno.2]
      rfl

end

end Dep

namespace DepSet

variable {α : Type}

def holds (met : α → Bool) (applied : String → Bool) (deps : DepSet α) : Bool :=
  (Dep.verdicts met applied deps).all id

/-- A specification asks for the same before and after its conditionals are resolved; afterwards
the applied flags do not count any more. -/
theorem holds_withoutConditionals {deps : DepSet α} (h : Dep.allBlocksConjoined deps = true)
    (met : α → Bool) (applied other : String → Bool) :
    (deps.withoutConditionals applied).holds met other = deps.holds met applied :=
  (Dep.verdicts_resolveAll deps h).1

theorem holds_withoutConditionals_nested :
    let deps : DepSet String :=
      [.group .exactlyOne [.leaf "a", .group .allOf
          [.conditional "x" true [.leaf "b", .conditional "y" false [.leaf "c"]]]],
        .conditional "y" false [.group .atMostOne [.leaf "a", .leaf "c"]]]
    Dep.allBlocksConjoined deps = true ∧ deps.holds (· == "a") (· == "y") = true ∧
      deps.holds (· == "a") (· == "x") = false ∧
      ∀ met applied other,
        (deps.withoutConditionals applied).holds met other = deps.holds met applied := by
  intro deps
  have h : Dep.allBlocksConjoined deps = true := by decide
  exact ⟨h, by decide, by decide, holds_withoutConditionals h⟩

/-- Where members are counted it matters that a block has gone. -/
example :
    let deps : DepSet String := [.group .anyOf [.conditional "x" false [.leaf "a"]]]
    deps.holds (fun _ => false) (fun _ => false) = true ∧
      (deps.withoutConditionals fun _ => false).holds (fun _ => false) (fun _ => false) =
        false := by
  decide

end DepSet

end PackageAlgebra
