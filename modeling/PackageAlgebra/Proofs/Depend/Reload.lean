import PackageAlgebra.Proofs.Depend.Loaded

/-!
# Trees are loaded as they were stored

Each kind of node pays for brackets of its own: a leaf for one, a group for two,
a conditional for three. A tree is loaded again if its brackets lie within the
limit, and refused beyond it.
-/

namespace PackageAlgebra

namespace Json

mutual

/-- How deep the brackets of arrays and objects lie inside one another. -/
def nesting : Json → Nat
  | .array items => nestingItems items + 1
  | .object members => nestingMembers members + 1
  | _ => 0

def nestingItems : List Json → Nat
  | [] => 0
  | item :: items => max (nesting item) (nestingItems items)

def nestingMembers : List (Option String × Json) → Nat
  | [] => 0
  | (_, value) :: members => max (nesting value) (nestingMembers members)

end

end Json

namespace Dep

variable {α : Type} [Leaf α]

theorem nesting_leaf (a : α) : (toJson (.leaf a)).nesting = 1 :=
  rfl

theorem nesting_group (kind : GroupKind) (children : List (Dep α)) :
    (toJson (.group kind children)).nesting = (Json.array (toJsons children)).nesting + 1 := by
  simp [toJson, Json.record, Json.nesting, Json.nestingMembers]

theorem nesting_conditional (flag : String) (negated : Bool) (children : List (Dep α)) :
    (toJson (.conditional flag negated children)).nesting =
      (Json.array (toJsons children)).nesting + 2 := by
  simp [toJson, Json.record, Json.text, Json.nesting, Json.nestingMembers]

theorem ofJson?_group (depth : Nat) (kind : GroupKind) (children : List (Dep α)) :
    ofJson? (depth + 1) (toJson (.group kind children)) =
      (ofJsons? depth (.array (toJsons children))).map (Dep.group (α := α) kind) := by
  cases kind <;> rfl

theorem ofJson?_conditional (depth : Nat) (flag : String) (negated : Bool)
    (children : List (Dep α)) :
    ofJson? (depth + 2) (toJson (.conditional flag negated children)) =
      (ofJsons? depth (.array (toJsons children))).map (Dep.conditional (α := α) flag negated) := by
  let members : List (String × Json) :=
    [("flag", .text flag), ("negate", .bool negated), ("children", .array (toJsons children))]
  have hfields : (Json.record members).fields? ["flag", "negate", "children"] =
      some fun name => members.lookup name := Json.fields?_record rfl (by decide)
  show conditionalOfJson? (α := α) (depth + 1) (.record members) = _
  rw [conditionalOfJson?, hfields]
  show (ofJsons? depth (.array (toJsons children))).bind
    (fun children => some (Dep.conditional (α := α) flag negated children)) = _
  cases ofJsons? (α := α) depth (.array (toJsons children)) <;> rfl

theorem ofJsons?_array {items : List Json} {nodes : List (Dep α)}
    (h : ∀ depth, items.mapM (ofJson? depth) =
      if Json.nestingItems items ≤ depth then some nodes else none) (depth : Nat) :
    ofJsons? depth (.array items) =
      if (Json.array items).nesting ≤ depth then some nodes else none := by
  cases depth with
  | zero => rfl
  | succ depth =>
    rw [ofJsons?, Json.list?, Json.array?, Option.bind_some, h]
    simp only [Json.nesting, Nat.add_le_add_iff_right]

mutual

theorem ofJson?_toJson : (node : Dep α) →
    (∀ a ∈ leaves node, Leaf.read (Leaf.text a) = .ok a) → (depth : Nat) →
    ofJson? depth node.toJson = if node.toJson.nesting ≤ depth then some node else none
  | .leaf a, h, depth => by
    rw [nesting_leaf]
    cases depth with
    | zero => rfl
    | succ depth =>
      rw [if_pos (Nat.le_add_left 1 depth)]
      exact leafOfJson?_text (h a (List.mem_singleton_self a))
  | .group kind children, h, depth => by
    have hchildren := ofJsons?_array (mapM_ofJson?_toJsons children h)
    rw [nesting_group]
    cases depth with
    | zero => rfl
    | succ depth =>
      rw [ofJson?_group, hchildren]
      simp only [Nat.add_le_add_iff_right]
      split <;> rfl
  | .conditional flag negated children, h, depth => by
    have hchildren := ofJsons?_array (mapM_ofJson?_toJsons children h)
    rw [nesting_conditional]
    match depth with
    | 0 => rfl
    | 1 => rfl
    | depth + 2 =>
      rw [ofJson?_conditional, hchildren]
      simp only [Nat.add_le_add_iff_right]
      split <;> rfl

theorem mapM_ofJson?_toJsons : (nodes : List (Dep α)) →
    (∀ a ∈ leavesAll nodes, Leaf.read (Leaf.text a) = .ok a) → (depth : Nat) →
    (toJsons nodes).mapM (ofJson? depth) =
      if Json.nestingItems (toJsons nodes) ≤ depth then some nodes else none
  | [], _, depth => by
    rw [toJsons, Json.nestingItems, if_pos (Nat.zero_le depth)]
    rfl
  | node :: nodes, h, depth => by
    rw [leavesAll, List.forall_mem_append] at h
    rw [toJsons, List.mapM_cons, ofJson?_toJson node h.1 depth,
      mapM_ofJson?_toJsons nodes h.2 depth, Json.nestingItems]
    by_cases hnode : node.toJson.nesting ≤ depth
    · by_cases hnodes : Json.nestingItems (toJsons nodes) ≤ depth
      · rw [if_pos hnode, if_pos hnodes, if_pos (Nat.max_le.mpr ⟨hnode, hnodes⟩)]
        rfl
      · rw [if_pos hnode, if_neg hnodes, if_neg fun hboth => hnodes (Nat.max_le.mp hboth).2]
        rfl
    · rw [if_neg hnode, if_neg fun hboth => hnode (Nat.max_le.mp hboth).1]
      rfl

end

end Dep

namespace DepSet

variable {α : Type} [Leaf α]

/-- Stored as a document of either form, the tree is loaded again. -/
structure Reloads (deps : DepSet α) : Prop where
  compact : (Json.ofString? deps.toJson.compact).bind ofJson? = some deps
  indented : (Json.ofString? deps.toJson.indented).bind ofJson? = some deps

theorem ofJson?_toJson {deps : DepSet α}
    (h : ∀ a ∈ Dep.leavesAll deps, Leaf.read (Leaf.text a) = .ok a) :
    ofJson? deps.toJson = if deps.toJson.nesting ≤ Json.maxDepth then some deps else none :=
  Dep.ofJsons?_array (Dep.mapM_ofJson?_toJsons deps h) Json.maxDepth

theorem reloads_iff {deps : DepSet α}
    (h : ∀ a ∈ Dep.leavesAll deps, Leaf.read (Leaf.text a) = .ok a) :
    deps.Reloads ↔ deps.toJson.nesting ≤ Json.maxDepth := by
  have hcompact := Json.ofString?_compact deps.plain_toJson
  have hindented := Json.ofString?_indented deps.plain_toJson
  have hread := ofJson?_toJson h
  constructor
  · intro hreloads
    have hloaded := hreloads.compact
    rw [hcompact, Option.bind_some, hread] at hloaded
    exact (Option.ite_none_right_eq_some.mp hloaded).1
  · intro hnesting
    rw [if_pos hnesting] at hread
    exact ⟨by rw [hcompact, Option.bind_some, hread], by rw [hindented, Option.bind_some, hread]⟩

theorem Printable.reloads_iff {deps : DepSet α} (h : Printable deps) :
    deps.Reloads ↔ deps.toJson.nesting ≤ Json.maxDepth :=
  DepSet.reloads_iff fun a ha => (((Dep.spellableAll_iff deps).mp h.spellable).1 a ha).read_text

/-- A tree that is read from a text, and whatever it is evaluated to, is loaded again from what it
is stored as exactly if the brackets there lie at most 127 deep. -/
theorem reloads_of_parse :
    (∀ (text : String) (deps : DepSet String) (steps : List (String → Bool)),
      parse text = .ok deps →
        ((deps.evaluate steps).Reloads ↔ (deps.evaluate steps).toJson.nesting ≤ 127)) ∧
    ∀ (text : String) (deps : DepSet Atom) (steps : List (String → Bool)),
      parse text = .ok deps →
        ((deps.evaluate steps).Reloads ↔ (deps.evaluate steps).toJson.nesting ≤ 127) :=
  ⟨fun _ _ steps h => ((Printable.of_parse h).evaluate steps).reloads_iff,
    fun _ _ steps h => ((Printable.of_parse h).evaluate steps).reloads_iff⟩

theorem reloads_of_parse_escaped :
    (∃ deps : DepSet String, parse "^^ ( a\"b x? ( c\\d ) )" = .ok deps ∧
      deps.toJson.nesting = 7 ∧ deps.Reloads) ∧
    ∃ deps : DepSet Atom, parse "?? ( ) !x? ( ( !!>=a/b-1.0:2= ) )" = .ok deps ∧
      (deps.evaluate [fun _ => false]).toJson.nesting = 4 ∧
      (deps.evaluate [fun _ => false]).Reloads := by
  have hwords : (parse "^^ ( a\"b x? ( c\\d ) )" : Except ExpressionError (DepSet String)) =
      .ok [.group .exactlyOne [.leaf "a\"b", .conditional "x" false [.leaf "c\\d"]]] := by
    rfl
  obtain ⟨a, hatoms⟩ : ∃ a : Atom, parse "?? ( ) !x? ( ( !!>=a/b-1.0:2= ) )" =
      .ok [.group .atMostOne [], .conditional "x" true [.group .allOf [.leaf a]]] := ⟨_, by rfl⟩
  have hreloads := (reloads_of_parse.1 _ _ [] hwords).mpr (by decide)
  have hnesting (a : Atom) : (evaluate [fun _ => false]
      [.group .atMostOne [], .conditional "x" true [.group .allOf [.leaf a]]]).toJson.nesting = 4 :=
    rfl
  have hreloadsAtoms := (reloads_of_parse.2 _ _ [fun _ => false] hatoms).mpr
    (by rw [hnesting a]; decide)
  exact ⟨⟨_, hwords, rfl, hreloads⟩, _, hatoms, hnesting a, hreloadsAtoms⟩

end DepSet

end PackageAlgebra
