import Mathlib.Data.Finset.Dedup
import PackageAlgebra.Depend.Tree

/-!
# Conditionals and the words of a tree

Every word of a printed tree stands in some conditional blocks and may be one of
the words around such a block. Resolving conditionals takes away the words of
blocks that do not count and the words around those that do, and leaves all
others in their order. The flag of a conditional is asked for only if every
block around it counts.
-/

namespace PackageAlgebra

-- ---------------------------------------------------------------------------
-- Guards and words
-- ---------------------------------------------------------------------------

/-- The condition on a block. -/
structure Guard where
  flag : String
  negated : Bool
deriving DecidableEq, Repr

def Guard.holds (applied : String → Bool) (g : Guard) : Bool :=
  if g.negated then !applied g.flag else applied g.flag

theorem Guard.holds_mk (applied : String → Bool) (flag : String) (negated : Bool) :
    Guard.holds applied ⟨flag, negated⟩ = (negated != applied flag) := by
  cases negated
  · exact (Bool.false_xor _).symm
  · exact (Bool.true_xor _).symm

/-- A word of a printed tree, and the guards of the blocks that it stands in, the outermost
first. The flag and the brackets of a block belong to it, as its edge. -/
structure PlacedWord where
  word : String
  guards : List Guard
  isEdge : Bool
deriving DecidableEq, Repr

namespace PlacedWord

/-- Stays if every block around it counts, and if it is no edge of one. -/
def stays (applied : String → Bool) (w : PlacedWord) : Bool :=
  !w.isEdge && w.guards.all (Guard.holds applied)

def freed (w : PlacedWord) : PlacedWord :=
  ⟨w.word, [], false⟩

def put (guards : List Guard) (isEdge : Bool) (words : List String) : List PlacedWord :=
  words.map (⟨·, guards, isEdge⟩)

@[simp] theorem map_word_put (guards : List Guard) (isEdge : Bool) (words : List String) :
    (put guards isEdge words).map (·.word) = words := by
  simp [put, Function.comp_def]

@[simp] theorem map_freed_put (guards : List Guard) (isEdge : Bool) (words : List String) :
    (put guards isEdge words).map (·.freed) = put [] false words := by
  simp [put, freed, Function.comp_def]

variable {applied : String → Bool} {guards : List Guard} {isEdge : Bool}

theorem filter_put (words : List String) :
    (put guards isEdge words).filter (·.stays applied) =
      if !isEdge && guards.all (Guard.holds applied) then put guards isEdge words else [] := by
  rw [put, List.filter_map]
  change (words.filter fun _ => !isEdge && guards.all (Guard.holds applied)).map _ = _
  cases !isEdge && guards.all (Guard.holds applied) with
  | false => rw [List.filter_eq_nil_iff.mpr fun _ _ => Bool.false_ne_true]; rfl
  | true => rw [List.filter_eq_self.mpr fun _ _ => rfl]; rfl

theorem filter_put_edge (words : List String) :
    (put guards true words).filter (·.stays applied) = [] := by
  rw [filter_put]
  rfl

theorem filter_put_of_not (h : guards.all (Guard.holds applied) = false) (words : List String) :
    (put guards isEdge words).filter (·.stays applied) = [] := by
  rw [filter_put, h, Bool.and_false]
  rfl

theorem filter_put_of_holds (h : guards.all (Guard.holds applied) = true)
    (words : List String) :
    (put guards false words).filter (·.stays applied) = put guards false words := by
  rw [filter_put, h]
  rfl

end PlacedWord

namespace Dep

-- ---------------------------------------------------------------------------
-- Where conditionals are
-- ---------------------------------------------------------------------------

/-- The first node is the second one or stands somewhere below it. -/
inductive Occurs : Dep α → Dep α → Prop
  | here {node : Dep α} : Occurs node node
  | child {node child root : Dep α} :
      child ∈ root.children → Occurs node child → Occurs node root

def IsConditional (node : Dep α) : Prop :=
  ∃ flag negated children, node = .conditional flag negated children

theorem anyConditionals_eq_true_iff (nodes : List (Dep α)) :
    anyConditionals nodes = true ↔ ∃ node ∈ nodes, hasConditionals node = true := by
  induction nodes with
  | nil => simp [anyConditionals]
  | cons node nodes ih => simp [anyConditionals, ih]

theorem Occurs.hasConditionals {node root : Dep α} (h : Occurs node root)
    (hnode : IsConditional node) : hasConditionals root = true := by
  induction h with
  | here =>
    obtain ⟨flag, negated, children, rfl⟩ := hnode
    rfl
  | @child child root hmem _ ih =>
    cases root with
    | leaf a => nomatch hmem
    | group kind children => exact (anyConditionals_eq_true_iff children).mpr ⟨child, hmem, ih⟩
    | conditional flag negated children => rfl

mutual

theorem exists_occurs_of_hasConditionals :
    (root : Dep α) → hasConditionals root = true → ∃ node, Occurs node root ∧ IsConditional node
  | .leaf _, h => nomatch h
  | .group _ children, h =>
    have ⟨_, hmem, node, hnode, hconditional⟩ := exists_occurs_of_anyConditionals children h
    ⟨node, .child hmem hnode, hconditional⟩
  | .conditional flag negated children, _ => ⟨_, .here, flag, negated, children, rfl⟩

theorem exists_occurs_of_anyConditionals :
    (nodes : List (Dep α)) → anyConditionals nodes = true →
      ∃ root ∈ nodes, ∃ node, Occurs node root ∧ IsConditional node
  | [], h => nomatch h
  | root :: nodes, h => by
    rw [anyConditionals, Bool.or_eq_true] at h
    rcases h with h | h
    · exact ⟨root, List.mem_cons_self, exists_occurs_of_hasConditionals root h⟩
    · obtain ⟨other, hmem, hother⟩ := exists_occurs_of_anyConditionals nodes h
      exact ⟨other, List.mem_cons_of_mem _ hmem, hother⟩

end

theorem anyConditionals_iff_occurs (nodes : List (Dep α)) :
    anyConditionals nodes = true ↔
      ∃ root ∈ nodes, ∃ node, Occurs node root ∧ IsConditional node := by
  refine ⟨exists_occurs_of_anyConditionals nodes, ?_⟩
  rintro ⟨root, hmem, node, hnode, hconditional⟩
  exact (anyConditionals_eq_true_iff nodes).mpr ⟨root, hmem, hnode.hasConditionals hconditional⟩

-- ---------------------------------------------------------------------------
-- Nothing is left to resolve
-- ---------------------------------------------------------------------------

theorem anyConditionals_append (as bs : List (Dep α)) :
    anyConditionals (as ++ bs) = (anyConditionals as || anyConditionals bs) := by
  induction as with
  | nil => rfl
  | cons a as ih => rw [List.cons_append, anyConditionals, anyConditionals, ih, Bool.or_assoc]

mutual

theorem anyConditionals_resolve (applied : String → Bool) :
    (node : Dep α) → anyConditionals (resolve applied node) = false
  | .leaf _ => rfl
  | .group _ children => by
    rw [resolve, anyConditionals, hasConditionals, anyConditionals_resolveAll applied children]
    rfl
  | .conditional _ _ children => by
    rw [resolve]
    split
    · exact anyConditionals_resolveAll applied children
    · rfl

theorem anyConditionals_resolveAll (applied : String → Bool) :
    (nodes : List (Dep α)) → anyConditionals (resolveAll applied nodes) = false
  | [] => rfl
  | node :: nodes => by
    rw [resolveAll, anyConditionals_append, anyConditionals_resolve applied node,
      anyConditionals_resolveAll applied nodes]
    rfl

end

mutual

theorem resolve_of_hasConditionals (applied : String → Bool) :
    (node : Dep α) → hasConditionals node = false → resolve applied node = [node]
  | .leaf _, _ => rfl
  | .group _ children, h => by
    rw [resolve, resolveAll_of_anyConditionals applied children h]
  | .conditional .., h => nomatch h

theorem resolveAll_of_anyConditionals (applied : String → Bool) :
    (nodes : List (Dep α)) → anyConditionals nodes = false → resolveAll applied nodes = nodes
  | [], _ => rfl
  | node :: nodes, h => by
    rw [anyConditionals, Bool.or_eq_false_iff] at h
    rw [resolveAll, resolve_of_hasConditionals applied node h.1,
      resolveAll_of_anyConditionals applied nodes h.2]
    rfl

end

-- ---------------------------------------------------------------------------
-- The words and their places
-- ---------------------------------------------------------------------------

variable {α : Type} [Leaf α]

mutual

/-- The words of a node that stands in blocks with these guards. -/
def placedWords (guards : List Guard) : Dep α → List PlacedWord
  | .leaf a => PlacedWord.put guards false [Leaf.text a]
  | .group kind children =>
    PlacedWord.put guards false (kind.sign?.toList ++ ["("]) ++ placedWordsAll guards children ++
      PlacedWord.put guards false [")"]
  | .conditional flag negated children =>
    let inner := guards ++ [⟨flag, negated⟩]
    PlacedWord.put inner true [conditionWord flag negated, "("] ++ placedWordsAll inner children ++
      PlacedWord.put inner true [")"]

def placedWordsAll (guards : List Guard) : List (Dep α) → List PlacedWord
  | [] => []
  | node :: nodes => placedWords guards node ++ placedWordsAll guards nodes

end

mutual

theorem map_word_placedWords (guards : List Guard) :
    (node : Dep α) → (placedWords guards node).map (·.word) = words node
  | .leaf _ => PlacedWord.map_word_put ..
  | .group _ children => by
    simp [placedWords, words, map_word_placedWordsAll guards children]
  | .conditional flag negated children => by
    simp [placedWords, words, map_word_placedWordsAll (guards ++ [⟨flag, negated⟩]) children]

theorem map_word_placedWordsAll (guards : List Guard) :
    (nodes : List (Dep α)) → (placedWordsAll guards nodes).map (·.word) = wordsAll nodes
  | [] => rfl
  | node :: nodes => by
    rw [placedWordsAll, List.map_append, map_word_placedWords guards node,
      map_word_placedWordsAll guards nodes, wordsAll]

end

theorem placedWordsAll_append (guards : List Guard) (as bs : List (Dep α)) :
    placedWordsAll guards (as ++ bs) = placedWordsAll guards as ++ placedWordsAll guards bs := by
  induction as with
  | nil => rfl
  | cons a as ih =>
    rw [List.cons_append, placedWordsAll, placedWordsAll, ih, List.append_assoc]

variable {applied : String → Bool}

mutual

theorem filter_placedWords_of_not {guards : List Guard}
    (h : guards.all (Guard.holds applied) = false) :
    (node : Dep α) → (placedWords guards node).filter (·.stays applied) = []
  | .leaf _ => PlacedWord.filter_put_of_not h _
  | .group _ children => by
    rw [placedWords, List.filter_append, List.filter_append,
      filter_placedWordsAll_of_not h children,
      PlacedWord.filter_put_of_not h, PlacedWord.filter_put_of_not h]
    rfl
  | .conditional flag negated children => by
    have hinner : (guards ++ [Guard.mk flag negated]).all (Guard.holds applied) = false := by
      rw [List.all_append, h, Bool.false_and]
    rw [placedWords, List.filter_append, List.filter_append,
      filter_placedWordsAll_of_not hinner children, PlacedWord.filter_put_edge,
      PlacedWord.filter_put_edge]
    rfl

theorem filter_placedWordsAll_of_not {guards : List Guard}
    (h : guards.all (Guard.holds applied) = false) :
    (nodes : List (Dep α)) → (placedWordsAll guards nodes).filter (·.stays applied) = []
  | [] => rfl
  | node :: nodes => by
    rw [placedWordsAll, List.filter_append, filter_placedWords_of_not h node,
      filter_placedWordsAll_of_not h nodes, List.append_nil]

end

mutual

theorem placedWords_resolve {guards : List Guard} (h : guards.all (Guard.holds applied) = true) :
    (node : Dep α) → placedWordsAll [] (resolve applied node) =
      ((placedWords guards node).filter (·.stays applied)).map (·.freed)
  | .leaf _ => by
    rw [placedWords, PlacedWord.filter_put_of_holds h, PlacedWord.map_freed_put]
    rfl
  | .group _ children => by
    rw [resolve, placedWordsAll, placedWordsAll, placedWords, placedWords,
      placedWordsAll_resolveAll h children]
    simp [PlacedWord.filter_put_of_holds h]
  | .conditional flag negated children => by
    have hinner : (guards ++ [Guard.mk flag negated]).all (Guard.holds applied) =
        (negated != applied flag) := by
      simp [h, Guard.holds_mk]
    rw [resolve, placedWords, List.filter_append, List.filter_append, PlacedWord.filter_put_edge,
      PlacedWord.filter_put_edge, List.nil_append, List.append_nil]
    split
    next hcounts => exact placedWordsAll_resolveAll (hinner.trans hcounts) children
    next hdrops =>
      rw [filter_placedWordsAll_of_not (hinner.trans (Bool.eq_false_iff.mpr hdrops)) children]
      rfl

theorem placedWordsAll_resolveAll {guards : List Guard}
    (h : guards.all (Guard.holds applied) = true) :
    (nodes : List (Dep α)) → placedWordsAll [] (resolveAll applied nodes) =
      ((placedWordsAll guards nodes).filter (·.stays applied)).map (·.freed)
  | [] => rfl
  | node :: nodes => by
    rw [resolveAll, placedWordsAll_append, placedWords_resolve h node,
      placedWordsAll_resolveAll h nodes, placedWordsAll, List.filter_append, List.map_append]

end

end Dep

namespace DepSet

variable {α : Type} [Leaf α]

def placedWords (deps : DepSet α) : List PlacedWord :=
  Dep.placedWordsAll [] deps

/-- The words of the result are those of the specification that stay, none of them in a block. -/
theorem withoutConditionals_deletes (applied : String → Bool) (deps : DepSet α) :
    deps.words = deps.placedWords.map (·.word) ∧
    (deps.withoutConditionals applied).words =
      (deps.placedWords.filter (·.stays applied)).map (·.word) ∧
    (deps.withoutConditionals applied).placedWords =
      (deps.placedWords.filter (·.stays applied)).map (·.freed) ∧
    (deps.withoutConditionals applied).hasConditionals = false ∧
    (∀ other : String → Bool, (deps.withoutConditionals applied).withoutConditionals other =
      deps.withoutConditionals applied) ∧
    (deps.hasConditionals = true ↔
      ∃ root ∈ deps, ∃ node, Dep.Occurs node root ∧ node.IsConditional) := by
  have hnone : (deps.withoutConditionals applied).hasConditionals = false :=
    Dep.anyConditionals_resolveAll applied deps
  have hplaced : (deps.withoutConditionals applied).placedWords =
      (deps.placedWords.filter (·.stays applied)).map (·.freed) :=
    Dep.placedWordsAll_resolveAll rfl deps
  refine ⟨(Dep.map_word_placedWordsAll [] deps).symm, ?_, hplaced, hnone, fun other => ?_,
    Dep.anyConditionals_iff_occurs deps⟩
  · calc (deps.withoutConditionals applied).words
        = (deps.withoutConditionals applied).placedWords.map (·.word) :=
          (Dep.map_word_placedWordsAll [] _).symm
      _ = (deps.placedWords.filter (·.stays applied)).map (·.word) := by
          rw [hplaced, List.map_map]
          rfl
  · exact Dep.resolveAll_of_anyConditionals other _ hnone

/-- Of a group nothing but its brackets may be left. -/
example :
    let deps : DepSet String :=
      [.conditional "x" false [.leaf "a", .conditional "y" false [.leaf "b"]],
        .group .anyOf [.conditional "x" true [.leaf "c"]]]
    deps.words = ["x?", "(", "a", "y?", "(", "b", ")", ")", "||", "(", "!x?", "(", "c", ")", ")"] ∧
      (deps.withoutConditionals (· == "x")).words = ["a", "||", "(", ")"] := by
  decide +kernel

end DepSet

-- ---------------------------------------------------------------------------
-- The flags that are consulted
-- ---------------------------------------------------------------------------

open AppliedUse (isEnabled)

instance : AppliedUse (Finset String) where
  isEnabled flags flag := decide (flag ∈ flags)

namespace Dep

mutual

/-- The conditions in a node that stands in blocks with these guards, each behind the guards of
the blocks around it. -/
def conditions (guards : List Guard) : Dep α → List (List Guard × Guard)
  | .leaf _ => []
  | .group _ children => conditionsAll guards children
  | .conditional flag negated children =>
    (guards, ⟨flag, negated⟩) :: conditionsAll (guards ++ [⟨flag, negated⟩]) children

def conditionsAll (guards : List Guard) : List (Dep α) → List (List Guard × Guard)
  | [] => []
  | node :: nodes => conditions guards node ++ conditionsAll guards nodes

end

/-- The two agree on the flags of those conditions around which every block counts for `u`. -/
def AgreeOn (u v : String → Bool) (conditions : List (List Guard × Guard)) : Prop :=
  ∀ c ∈ conditions, c.1.all (Guard.holds u) = true → u c.2.flag = v c.2.flag

instance (u v : String → Bool) (conditions : List (List Guard × Guard)) :
    Decidable (AgreeOn u v conditions) :=
  inferInstanceAs (Decidable (∀ c ∈ conditions, _))

variable {α : Type} {u v : String → Bool}

theorem agreeOn_append {cs ds : List (List Guard × Guard)} :
    AgreeOn u v (cs ++ ds) ↔ AgreeOn u v cs ∧ AgreeOn u v ds :=
  List.forall_mem_append

mutual

theorem resolve_congr {guards : List Guard} (hguards : guards.all (Guard.holds u) = true) :
    (node : Dep α) → AgreeOn u v (conditions guards node) → resolve u node = resolve v node
  | .leaf _, _ => rfl
  | .group _ children, h => by
    rw [resolve, resolve, resolveAll_congr hguards children h]
  | .conditional flag negated children, h => by
    obtain ⟨hflag, hchildren⟩ := List.forall_mem_cons.mp h
    have hsame : u flag = v flag := hflag hguards
    rw [resolve, resolve, ← hsame]
    split
    next hcounts =>
      have hinner : (guards ++ [Guard.mk flag negated]).all (Guard.holds u) = true := by
        simp [hguards, Guard.holds_mk, hcounts]
      exact resolveAll_congr hinner children hchildren
    next => rfl

theorem resolveAll_congr {guards : List Guard} (hguards : guards.all (Guard.holds u) = true) :
    (nodes : List (Dep α)) → AgreeOn u v (conditionsAll guards nodes) →
      resolveAll u nodes = resolveAll v nodes
  | [], _ => rfl
  | node :: nodes, h => by
    obtain ⟨hnode, hnodes⟩ := agreeOn_append.mp h
    rw [resolveAll, resolveAll, resolve_congr hguards node hnode,
      resolveAll_congr hguards nodes hnodes]

end

end Dep

namespace DepSet

variable {α : Type}

def conditions (deps : DepSet α) : List (List Guard × Guard) :=
  Dep.conditionsAll [] deps

theorem withoutConditionals_congr {U V : Type} [AppliedUse U] [AppliedUse V] {u : U} {v : V}
    {deps : DepSet α} (h : Dep.AgreeOn (isEnabled u) (isEnabled v) deps.conditions) :
    deps.withoutConditionals (isEnabled u) = deps.withoutConditionals (isEnabled v) :=
  Dep.resolveAll_congr rfl deps h

/-- Within the block of `x`, which is left out, the flag `z` is free. -/
theorem withoutConditionals_congr_hidden :
    let deps : DepSet String :=
      [.conditional "x" false [.conditional "z" false [.leaf "a"]],
        .group .anyOf [.conditional "y" true [.leaf "b"], .leaf "c"]]
    let given := ["y", "w", "y"]
    let own := ["z", "y"].toFinset
    let test := fun flag : String => flag.length == 1 && flag != "x"
    isEnabled given "z" ≠ isEnabled own "z" ∧
      Dep.AgreeOn (isEnabled given) (isEnabled own) deps.conditions ∧
      Dep.AgreeOn (isEnabled given) (isEnabled test) deps.conditions ∧
      deps.withoutConditionals (isEnabled given) = deps.withoutConditionals (isEnabled own) ∧
      deps.withoutConditionals (isEnabled given) = deps.withoutConditionals (isEnabled test) := by
  intro deps given own test
  have hown : Dep.AgreeOn (isEnabled given) (isEnabled own) deps.conditions := by decide
  have htest : Dep.AgreeOn (isEnabled given) (isEnabled test) deps.conditions := by decide
  exact ⟨by decide, hown, htest, withoutConditionals_congr hown, withoutConditionals_congr htest⟩

end DepSet

end PackageAlgebra
