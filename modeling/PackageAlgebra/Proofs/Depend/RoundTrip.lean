import PackageAlgebra.Depend.Tree
import PackageAlgebra.Proofs.Atom.RoundTrip
import PackageAlgebra.Proofs.Depend.Grammar
import PackageAlgebra.Proofs.Text.Cut

/-!
# Dependency trees and their texts

A leaf that is read from a word is written as a word that is read as the same
leaf, and that is no bracket, sign or condition. So the words that are written
for a tree are derived by the grammar and spell that tree. Evaluation keeps
trees spellable and makes none deeper.
-/

namespace PackageAlgebra

open Text (IsWord)

-- ---------------------------------------------------------------------------
-- Leaves
-- ---------------------------------------------------------------------------

/-- The text of the leaf is one word, which is read as the leaf. -/
structure Leaf.Readable [Leaf α] (a : α) : Prop where
  isWord : IsWord (Leaf.text a).toList
  isLeafWord : IsLeafWord (Leaf.text a)
  read_text : Leaf.read (Leaf.text a) = .ok a

/-- Leaves that are read from words can be read from their texts. -/
class LawfulLeaf (α : Type) [Leaf α] : Prop where
  readable_of_read {word : String} {a : α} : IsWord word.toList → IsLeafWord word →
    Leaf.read word = .ok a → Leaf.Readable a

instance : LawfulLeaf String where
  readable_of_read hword hleaf h := by
    cases h
    exact ⟨hword, hleaf, rfl⟩

namespace Atom

theorem toList_toString (a : Atom) : (toString a).toList = a.chars :=
  String.toList_ofList

theorem isWord_chars {a : Atom} (h : a.WellFormed)
    (huse : ∀ r ∈ a.useRequirements, ∀ c ∈ r.toList, Text.isBlank c = false) :
    IsWord a.chars := by
  obtain ⟨c, cs, hcs, -⟩ := chars_eq_cons h
  refine ⟨by simp [hcs], fun d hd => ?_⟩
  rw [chars_eq_parts, ← List.append_assoc, ← List.append_assoc] at hd
  rcases List.mem_append.mp hd with hd | hd
  · rcases List.mem_append.mp hd with hd | hd
    · exact isBlank_of_isAtomChar (isAtomChar_of_mem_front a.blocker a.bound d hd)
    · exact isBlank_of_isAtomChar (isAtomChar_of_mem_bodyChars h d hd)
  · obtain ⟨r, hr, hd⟩ := mem_elim hd
    simp only [List.mem_append, List.mem_cons, List.not_mem_nil, or_false] at hd
    rcases hd with (rfl | hd) | rfl
    · decide
    · exact huse r hr d hd
    · decide

theorem isLeafWord_toString {a : Atom} (h : a.WellFormed) : IsLeafWord (toString a) := by
  constructor
  · intro hmem
    obtain ⟨c, cs, hcs, hc⟩ := chars_eq_cons h
    have hheads : ∀ word ∈ ["(", ")", "||", "^^", "??"],
        word.toList.head?.any isAtomChar = false := by decide
    have hfalse := hheads _ hmem
    rw [toList_toString, hcs, List.head?_cons, Option.any_some, hc] at hfalse
    cases hfalse
  · intro hlast
    rw [toList_toString] at hlast
    rcases getLast?_chars h '?' hlast with hc | hc
    · cases hc
    · exact absurd hc (by decide)

theorem readable {a : Atom} (h : a.WellFormed)
    (huse : ∀ r ∈ a.useRequirements, ∀ c ∈ r.toList, Text.isBlank c = false) : Leaf.Readable a := by
  refine ⟨?_, isLeafWord_toString h, parse_of_wellFormed h⟩
  show IsWord (toString a).toList
  rw [toList_toString]
  exact isWord_chars h huse

end Atom

instance : LawfulLeaf Atom where
  readable_of_read hword _ h := by
    obtain ⟨hwellFormed, huse⟩ := Atom.read_ok (Atom.read_of_parse h)
    exact Atom.readable hwellFormed fun r hr c hc => hword.noBlank c (huse r hr c hc)

-- ---------------------------------------------------------------------------
-- Nesting
-- ---------------------------------------------------------------------------

namespace Dep

theorem depthAll_append (as bs : List (Dep α)) :
    depthAll (as ++ bs) = max (depthAll as) (depthAll bs) := by
  induction as with
  | nil => simp [depthAll]
  | cons a as ih => simp [depthAll, ih, Nat.max_assoc]

mutual

theorem depthAll_resolve_le (applied : String → Bool) :
    (node : Dep α) → depthAll (resolve applied node) ≤ depth node
  | .leaf _ => by simp [resolve, depthAll, depth]
  | .group _ children => by
    have := depthAll_resolveAll_le applied children
    simpa [resolve, depthAll, depth] using this
  | .conditional _ _ children => by
    have := depthAll_resolveAll_le applied children
    rw [resolve, depth]
    split
    · omega
    · simp [depthAll]

theorem depthAll_resolveAll_le (applied : String → Bool) :
    (nodes : List (Dep α)) → depthAll (resolveAll applied nodes) ≤ depthAll nodes
  | [] => Nat.le_refl _
  | node :: nodes => by
    have := depthAll_resolve_le applied node
    have := depthAll_resolveAll_le applied nodes
    rw [resolveAll, depthAll_append, depthAll]
    omega

end

variable {α : Type} [Leaf α]

mutual

def Spellable : Dep α → Prop
  | .leaf a => Leaf.Readable a
  | .group _ children => SpellableAll children
  | .conditional flag _ children => IsFlag flag ∧ SpellableAll children

def SpellableAll : List (Dep α) → Prop
  | [] => True
  | node :: nodes => Spellable node ∧ SpellableAll nodes

end

-- ---------------------------------------------------------------------------
-- The words of a tree
-- ---------------------------------------------------------------------------

theorem isSign_iff {sign : List String} {kind : GroupKind} :
    IsSign sign kind ↔ kind.sign?.toList = sign := by
  constructor
  · rintro (_ | _ | _ | _) <;> rfl
  · rintro rfl
    cases kind
    · exact .allOf
    · exact .anyOf
    · exact .exactlyOne
    · exact .atMostOne

theorem isCondition_iff {word flag : String} {negated : Bool} :
    IsCondition word flag negated ↔ IsFlag flag ∧ conditionWord flag negated = word := by
  constructor
  · rintro (h | h) <;> exact ⟨h, by simp [conditionWord]⟩
  · rintro ⟨h, rfl⟩
    cases negated
    · simpa [conditionWord] using IsCondition.set h
    · simpa [conditionWord] using IsCondition.unset h

mutual

theorem item_words : (node : Dep α) → Spellable node → Item (words node) node
  | .leaf _, h => .leaf h.isLeafWord h.read_text
  | .group kind children, h => by
    rw [Spellable] at h
    exact .group (isSign_iff.mpr rfl) (items_wordsAll children h)
  | .conditional flag negated children, h => by
    rw [Spellable] at h
    exact .conditional (isCondition_iff.mpr ⟨h.1, rfl⟩) (items_wordsAll children h.2)

theorem items_wordsAll : (nodes : List (Dep α)) → SpellableAll nodes → Items (wordsAll nodes) nodes
  | [], _ => .nil
  | node :: nodes, h => by
    rw [SpellableAll] at h
    exact .cons (item_words node h.1) (items_wordsAll nodes h.2)

end

theorem isBlank_of_mem_flag {flag : String} (h : IsFlag flag) :
    ∀ c ∈ flag.toList, Text.isBlank c = false := by
  obtain ⟨c, cs, hflag, hc, hcs⟩ := h
  intro d hd
  rw [hflag] at hd
  rcases List.mem_cons.mp hd with rfl | hd
  · exact Text.isBlank_of_isAlphanum hc
  · rcases hcs d hd with hd | hd
    · exact Text.isBlank_of_isAlphanum hd
    · simp only [List.mem_cons, List.not_mem_nil, or_false] at hd
      rcases hd with rfl | rfl | rfl | rfl <;> rfl

theorem isWord_of_mem_sign? (kind : GroupKind) :
    ∀ word ∈ kind.sign?.toList, IsWord word.toList := by
  cases kind <;> decide

theorem isWord_conditionWord {flag : String} (h : IsFlag flag) (negated : Bool) :
    IsWord (conditionWord flag negated).toList := by
  have hflag := isBlank_of_mem_flag h
  have hmark : Text.isBlank '!' = false := by decide
  have hend : Text.isBlank '?' = false := by decide
  refine ⟨by simp [conditionWord], ?_⟩
  cases negated <;> simpa [conditionWord, or_imp, forall_and, hmark, hend] using hflag

theorem isWord_of_mem_block {front words : List String}
    (hfront : ∀ word ∈ front, IsWord word.toList) (hwords : ∀ word ∈ words, IsWord word.toList) :
    ∀ word ∈ front ++ "(" :: words ++ [")"], IsWord word.toList := by
  intro word hword
  simp only [List.mem_append, List.mem_cons, List.not_mem_nil, or_false] at hword
  rcases hword with (hword | rfl | hword) | rfl
  · exact hfront word hword
  · decide
  · exact hwords word hword
  · decide

mutual

theorem isWord_of_mem_words : (node : Dep α) → Spellable node →
    ∀ word ∈ words node, IsWord word.toList
  | .leaf a, h => by
    simpa [words] using h.isWord
  | .group kind children, h => by
    rw [Spellable] at h
    exact isWord_of_mem_block (isWord_of_mem_sign? kind) (isWord_of_mem_wordsAll children h)
  | .conditional flag negated children, h => by
    rw [Spellable] at h
    have hfront : ∀ word ∈ [conditionWord flag negated], IsWord word.toList :=
      List.forall_mem_singleton.mpr (isWord_conditionWord h.1 negated)
    exact isWord_of_mem_block hfront (isWord_of_mem_wordsAll children h.2)

theorem isWord_of_mem_wordsAll : (nodes : List (Dep α)) → SpellableAll nodes →
    ∀ word ∈ wordsAll nodes, IsWord word.toList
  | [], _ => by simp [wordsAll]
  | node :: nodes, h => by
    rw [SpellableAll] at h
    intro word hword
    rw [wordsAll] at hword
    rcases List.mem_append.mp hword with hword | hword
    · exact isWord_of_mem_words node h.1 word hword
    · exact isWord_of_mem_wordsAll nodes h.2 word hword

end

-- ---------------------------------------------------------------------------
-- What is read is spellable
-- ---------------------------------------------------------------------------

mutual

theorem spellable_of_item [LawfulLeaf α] {words : List String} {node : Dep α} :
    Item words node → (∀ word ∈ words, IsWord word.toList) → Spellable node
  | .leaf hleaf hread, hwords => LawfulLeaf.readable_of_read (hwords _ (by simp)) hleaf hread
  | .group _ hchildren, hwords =>
    spellableAll_of_items hchildren fun word h => hwords word (by simp [h])
  | .conditional hword hchildren, hwords =>
    ⟨(isCondition_iff.mp hword).1,
      spellableAll_of_items hchildren fun word h => hwords word (by simp [h])⟩

theorem spellableAll_of_items [LawfulLeaf α] {words : List String} {nodes : List (Dep α)} :
    Items words nodes → (∀ word ∈ words, IsWord word.toList) → SpellableAll nodes
  | .nil, _ => trivial
  | .cons hnode hnodes, hwords =>
    ⟨spellable_of_item hnode fun word h => hwords word (by simp [h]),
      spellableAll_of_items hnodes fun word h => hwords word (by simp [h])⟩

end

theorem spellableAll_append {as bs : List (Dep α)} :
    SpellableAll (as ++ bs) ↔ SpellableAll as ∧ SpellableAll bs := by
  induction as with
  | nil => simp [SpellableAll]
  | cons a as ih => simp [SpellableAll, ih, and_assoc]

mutual

theorem spellableAll_resolve (applied : String → Bool) :
    (node : Dep α) → Spellable node → SpellableAll (resolve applied node)
  | .leaf _, h => ⟨h, trivial⟩
  | .group _ children, h => ⟨spellableAll_resolveAll applied children h, trivial⟩
  | .conditional _ _ children, h => by
    rw [resolve]
    split
    · exact spellableAll_resolveAll applied children h.2
    · trivial

theorem spellableAll_resolveAll (applied : String → Bool) :
    (nodes : List (Dep α)) → SpellableAll nodes → SpellableAll (resolveAll applied nodes)
  | [], _ => trivial
  | node :: nodes, h =>
    spellableAll_append.mpr
      ⟨spellableAll_resolve applied node h.1, spellableAll_resolveAll applied nodes h.2⟩

end

end Dep

-- ---------------------------------------------------------------------------
-- Text and tree
-- ---------------------------------------------------------------------------

mutual

theorem words_of_item {words : List String} {node : Dep String} :
    Item words node → Dep.words node = words
  | .leaf _ hread => by
    cases hread
    rfl
  | .group hsign hchildren => by
    rw [Dep.words, Dep.isSign_iff.mp hsign, wordsAll_of_items hchildren]
  | .conditional hword hchildren => by
    rw [Dep.words, (Dep.isCondition_iff.mp hword).2, wordsAll_of_items hchildren]

theorem wordsAll_of_items {words : List String} {nodes : List (Dep String)} :
    Items words nodes → Dep.wordsAll nodes = words
  | .nil => rfl
  | .cons hnode hnodes => by rw [Dep.wordsAll, words_of_item hnode, wordsAll_of_items hnodes]

end

namespace DepSet

/-- The conditionals are resolved once for each of the given applied flags. -/
def evaluate (steps : List (String → Bool)) (deps : DepSet α) : DepSet α :=
  steps.foldl (fun deps applied => deps.withoutConditionals applied) deps

variable {α : Type} [Leaf α]

/-- Can be written and read back: every part is spellable, and no group lies too deep. -/
structure Printable (deps : DepSet α) : Prop where
  spellable : Dep.SpellableAll deps
  depth : Dep.depthAll deps ≤ maxDepth

theorem Printable.of_parse [LawfulLeaf α] {text : String} {deps : DepSet α}
    (h : parse text = .ok deps) : Printable deps := by
  obtain ⟨hitems, hdepth⟩ := (parse_eq_ok_iff text deps).mp h
  exact ⟨Dep.spellableAll_of_items hitems fun _ => Text.isWord_of_mem_wordsOf, hdepth⟩

theorem Printable.withoutConditionals {deps : DepSet α} (h : Printable deps)
    (applied : String → Bool) : Printable (deps.withoutConditionals applied) :=
  ⟨Dep.spellableAll_resolveAll applied deps h.spellable,
    Nat.le_trans (Dep.depthAll_resolveAll_le applied deps) h.depth⟩

theorem Printable.evaluate {deps : DepSet α} (h : Printable deps) (steps : List (String → Bool)) :
    Printable (deps.evaluate steps) := by
  induction steps generalizing deps with
  | nil => exact h
  | cons applied steps ih => exact ih (h.withoutConditionals applied)

theorem Printable.parse_print {deps : DepSet α} (h : Printable deps) :
    parse deps.print = .ok deps := by
  rw [parse_eq_ok_iff, print, DepSet.words,
    Text.wordsOf_intercalate (Dep.isWord_of_mem_wordsAll deps h.spellable)]
  exact ⟨Dep.items_wordsAll deps h.spellable, h.depth⟩

theorem parse_print_inverse :
    (∀ (text : String) (deps : DepSet String), parse text = .ok deps →
      deps.print = " ".intercalate (Text.wordsOf text)) ∧
    (∀ (text : String) (deps : DepSet String) (steps : List (String → Bool)),
      parse text = .ok deps → parse (deps.evaluate steps).print = .ok (deps.evaluate steps)) ∧
    ∀ (text : String) (deps : DepSet Atom) (steps : List (String → Bool)),
      parse text = .ok deps → parse (deps.evaluate steps).print = .ok (deps.evaluate steps) := by
  refine ⟨?_, ?_, ?_⟩
  · intro text deps h
    obtain ⟨hitems, -⟩ := (parse_eq_ok_iff text deps).mp h
    rw [print, DepSet.words, wordsAll_of_items hitems]
  · intro text deps steps h
    exact ((Printable.of_parse h).evaluate steps).parse_print
  · intro text deps steps h
    exact ((Printable.of_parse h).evaluate steps).parse_print

theorem parse_print_inverse_nested :
    (∃ deps : DepSet String, parse " || ( MIT  x? ( !y? ( BSD ) ( ) ) )" = .ok deps ∧
      deps.print = "|| ( MIT x? ( !y? ( BSD ) ( ) ) )" ∧
      parse "|| ( MIT BSD ( ) )" = .ok (deps.evaluate [(· == "x"), fun _ => false])) ∧
    ∃ deps : DepSet Atom, parse "?? ( ) x? ( !!a/b-c: )" = .ok deps ∧
      parse "?? ( ) !!a/b-c" = .ok (deps.evaluate [fun _ => true]) := by
  have hlicences : parse " || ( MIT  x? ( !y? ( BSD ) ( ) ) )" =
      .ok [.group .anyOf [.leaf "MIT",
        .conditional "x" false [.conditional "y" true [.leaf "BSD"], .group .allOf []]]] := by
    rfl
  have hatoms : parse "?? ( ) x? ( !!a/b-c: )" =
      .ok [.group .atMostOne [], .conditional "x" false
        [.leaf { Atom.ofKey ⟨some "a", "b-c"⟩ with blocker := some .strong }]] := by
    rfl
  have hprint := parse_print_inverse.1 _ _ hlicences
  have hread := parse_print_inverse.2.1 _ _ [(· == "x"), fun _ => false] hlicences
  have hreadAtoms := parse_print_inverse.2.2 _ _ [fun _ => true] hatoms
  exact ⟨⟨_, hlicences, hprint.trans (by rfl), hread⟩, _, hatoms, hreadAtoms⟩

end DepSet

end PackageAlgebra
