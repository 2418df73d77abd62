import PackageAlgebra.Depend.Json
import PackageAlgebra.Proofs.Atom.Match
import PackageAlgebra.Proofs.Atom.RoundTrip
import PackageAlgebra.Proofs.Depend.RoundTrip
import PackageAlgebra.Proofs.Json

/-!
# Dependency trees that are loaded from documents

A document holds a tree as a structure, so reading it never asks whether the
tree can be spelled. Its leaves come from texts and the limit on brackets keeps
it shallow enough, but a flag may be any text, and the text of an atom may have
blanks inside.
-/

namespace PackageAlgebra

-- ---------------------------------------------------------------------------
-- Leaves and trees as documents
-- ---------------------------------------------------------------------------

theorem Dep.leafOfJson?_text {α : Type} [Leaf α] {a : α} (h : Leaf.read (Leaf.text a) = .ok a) :
    leafOfJson? (.text (Leaf.text a)) = some (.leaf a) := by
  rw [leafOfJson?, Json.text, Json.text?, Option.bind_some, h]
  rfl

/-- An atom is read again from its text, and loaded again from the literal that it is stored
as. -/
theorem Atom.stored_of_parse {text : String} {a : Atom} (h : parse text = .ok a) :
    parse (toString a) = .ok a ∧ (parse (toString a)).map toString = .ok (toString a) ∧
      (Json.ofString? (Json.text (toString a)).compact).bind Dep.leafOfJson? = some (.leaf a) := by
  have hread : parse (toString a) = .ok a := parse_of_wellFormed (read_ok (read_of_parse h)).1
  refine ⟨hread, by rw [hread]; rfl, ?_⟩
  rw [Json.ofString?_compact_text, Option.bind_some]
  exact Dep.leafOfJson?_text hread

theorem Atom.stored_of_parse_full :
    ∃ a, parse " !!>=a-b/c-d-1.0a_rc1-r0:2/2.1=::gentoo[x y] " = .ok a ∧
      toString a = "!!>=a-b/c-d-1.0a_rc1:2/2.1=::gentoo[x y]" ∧
      parse (toString a) = .ok a ∧ (parse (toString a)).map toString = .ok (toString a) ∧
      (Json.ofString? (Json.text (toString a)).compact).bind Dep.leafOfJson? = some (.leaf a) := by
  obtain ⟨a, hparse, htext⟩ : ∃ a, parse " !!>=a-b/c-d-1.0a_rc1-r0:2/2.1=::gentoo[x y] " = .ok a ∧
      toString a = "!!>=a-b/c-d-1.0a_rc1:2/2.1=::gentoo[x y]" := ⟨_, rfl, rfl⟩
  exact ⟨a, hparse, htext, stored_of_parse hparse⟩

mutual

theorem Dep.plain_toJson {α : Type} [Leaf α] : (node : Dep α) → Json.Plain node.toJson
  | .leaf a => .record (List.forall_mem_singleton.mpr (.text _))
  | .group _ children =>
    .record (List.forall_mem_singleton.mpr (.array (plain_of_mem_toJsons children)))
  | .conditional flag negated children => by
    have hchildren : Json.Plain (.array (toJsons children)) :=
      .array (plain_of_mem_toJsons children)
    have hflag : Json.Plain (.text flag) := .text flag
    have hnegated : Json.Plain (.bool negated) := .bool negated
    refine .record (List.forall_mem_singleton.mpr (.record ?_))
    simp [hflag, hnegated, hchildren]

theorem Dep.plain_of_mem_toJsons {α : Type} [Leaf α] : (nodes : List (Dep α)) →
    ∀ j ∈ toJsons nodes, Json.Plain j
  | [], _, h => nomatch h
  | node :: nodes, j, h => by
    rcases List.mem_cons.mp h with rfl | h
    · exact plain_toJson node
    · exact plain_of_mem_toJsons nodes j h

end

theorem DepSet.plain_toJson {α : Type} [Leaf α] (deps : DepSet α) : Json.Plain deps.toJson :=
  .array (Dep.plain_of_mem_toJsons deps)

theorem DepSet.ofString?_toJson {α : Type} [Leaf α] (deps : DepSet α) :
    Json.ofString? deps.toJson.indented = some deps.toJson :=
  Json.ofString?_indented deps.plain_toJson

namespace Dep

-- ---------------------------------------------------------------------------
-- Leaves and flags
-- ---------------------------------------------------------------------------

mutual

def leaves : Dep α → List α
  | .leaf a => [a]
  | .group _ children => leavesAll children
  | .conditional _ _ children => leavesAll children

def leavesAll : List (Dep α) → List α
  | [] => []
  | node :: nodes => leaves node ++ leavesAll nodes

end

mutual

def flags : Dep α → List String
  | .leaf _ => []
  | .group _ children => flagsAll children
  | .conditional flag _ children => flag :: flagsAll children

def flagsAll : List (Dep α) → List String
  | [] => []
  | node :: nodes => flags node ++ flagsAll nodes

end

mutual

/-- Spelling a tree is spelling its leaves and its flags. -/
theorem spellable_iff [Leaf α] : (node : Dep α) →
    (Spellable node ↔ (∀ a ∈ leaves node, Leaf.Readable a) ∧ ∀ flag ∈ flags node, IsFlag flag)
  | .leaf a => by simp [Spellable, leaves, flags]
  | .group _ children => spellableAll_iff children
  | .conditional flag _ children => by
    rw [Spellable, leaves, flags, List.forall_mem_cons, spellableAll_iff children]
    exact and_left_comm

theorem spellableAll_iff [Leaf α] : (nodes : List (Dep α)) →
    (SpellableAll nodes ↔
      (∀ a ∈ leavesAll nodes, Leaf.Readable a) ∧ ∀ flag ∈ flagsAll nodes, IsFlag flag)
  | [] => by simp [SpellableAll, leavesAll, flagsAll]
  | node :: nodes => by
    rw [SpellableAll, leavesAll, flagsAll, List.forall_mem_append, List.forall_mem_append,
      spellable_iff node, spellableAll_iff nodes]
    exact and_and_and_comm

end

mutual

/-- Equal trees have the same flags, and leaves that agree in whatever equal leaves agree in. -/
theorem parts_of_sameBy {same : α → α → Bool} {f : α → β}
    (hf : ∀ a b, same a b = true → f a = f b) : (m n : Dep α) → sameBy same m n = true →
    flags m = flags n ∧ (leaves m).map f = (leaves n).map f
  | .leaf a, .leaf b, h => ⟨rfl, by simpa [leaves] using hf a b h⟩
  | .group _ as, .group _ bs, h => by
    rw [sameBy, Bool.and_eq_true] at h
    exact parts_of_sameAllBy hf as bs h.2
  | .conditional _ _ as, .conditional _ _ bs, h => by
    simp only [sameBy, Bool.and_eq_true, beq_iff_eq] at h
    obtain ⟨⟨rfl, -⟩, h⟩ := h
    obtain ⟨hflags, hleaves⟩ := parts_of_sameAllBy hf as bs h
    exact ⟨by rw [flags, flags, hflags], hleaves⟩

theorem parts_of_sameAllBy {same : α → α → Bool} {f : α → β}
    (hf : ∀ a b, same a b = true → f a = f b) : (as bs : List (Dep α)) →
    sameAllBy same as bs = true →
    flagsAll as = flagsAll bs ∧ (leavesAll as).map f = (leavesAll bs).map f
  | [], [], _ => ⟨rfl, rfl⟩
  | a :: as, b :: bs, h => by
    rw [sameAllBy, Bool.and_eq_true] at h
    obtain ⟨hflag, hleaf⟩ := parts_of_sameBy hf a b h.1
    obtain ⟨hflags, hleaves⟩ := parts_of_sameAllBy hf as bs h.2
    rw [flagsAll, flagsAll, leavesAll, leavesAll, List.map_append, List.map_append]
    exact ⟨by rw [hflag, hflags], by rw [hleaf, hleaves]⟩

end

-- ---------------------------------------------------------------------------
-- What a document can hold
-- ---------------------------------------------------------------------------

variable {α : Type} [Leaf α]

/-- What reading ensures of nodes: their leaves are read, and no more groups lie inside one another
than the brackets that are left. -/
structure Loaded (depth : Nat) (nodes : List (Dep α)) : Prop where
  leaves : ∀ a ∈ leavesAll nodes, ∃ word, Leaf.read word = .ok a
  depth : depthAll nodes ≤ depth

namespace Loaded

variable {depth : Nat}

theorem nil : Loaded depth ([] : List (Dep α)) :=
  ⟨by simp [leavesAll], Nat.zero_le _⟩

theorem cons {node : Dep α} {nodes : List (Dep α)} (hnode : Loaded depth [node])
    (hnodes : Loaded depth nodes) : Loaded depth (node :: nodes) := by
  have hdepth := hnode.depth
  have hleaves := hnode.leaves
  simp only [depthAll, leavesAll, Nat.max_zero, List.append_nil] at hdepth hleaves
  constructor
  · rw [leavesAll, List.forall_mem_append]
    exact ⟨hleaves, hnodes.leaves⟩
  · rw [depthAll]
    exact Nat.max_le.mpr ⟨hdepth, hnodes.depth⟩

theorem of_forall {nodes : List (Dep α)} (h : ∀ node ∈ nodes, Loaded depth [node]) :
    Loaded depth nodes := by
  induction nodes with
  | nil => exact nil
  | cons node nodes ih =>
    obtain ⟨hnode, hnodes⟩ := List.forall_mem_cons.mp h
    exact cons hnode (ih hnodes)

theorem leaf {a : α} {word : String} (h : Leaf.read word = .ok a) :
    Loaded depth [.leaf a] :=
  ⟨by simpa [leavesAll, Dep.leaves] using ⟨word, h⟩, by simp [depthAll, Dep.depth]⟩

theorem group {children : List (Dep α)} (h : Loaded depth children) (kind : GroupKind) :
    Loaded (depth + 1) [.group kind children] :=
  ⟨by simpa [leavesAll, Dep.leaves] using h.leaves,
    by simpa [depthAll, Dep.depth] using h.depth⟩

theorem conditional {children : List (Dep α)} (h : Loaded depth children) (flag : String)
    (negated : Bool) : Loaded (depth + 1) [.conditional flag negated children] :=
  ⟨by simpa [leavesAll, Dep.leaves] using h.leaves,
    by simpa [depthAll, Dep.depth] using h.depth⟩

theorem mono {depth' : Nat} {nodes : List (Dep α)} (h : Loaded depth nodes)
    (hle : depth ≤ depth') : Loaded depth' nodes :=
  ⟨h.leaves, Nat.le_trans h.depth hle⟩

end Loaded

theorem loaded_of_leafOfJson? {depth : Nat} {j : Json} {node : Dep α}
    (h : leafOfJson? j = some node) : Loaded depth [node] := by
  obtain ⟨word, -, h⟩ := Option.bind_eq_some_iff.mp h
  cases hread : Leaf.read (α := α) word with
  | error e =>
    rw [hread] at h
    cases h
  | ok a =>
    rw [hread] at h
    cases h
    exact .leaf hread

mutual

theorem loaded_of_ofJson? : (depth : Nat) → (j : Json) → (node : Dep α) →
    ofJson? depth j = some node → Loaded depth [node]
  | 0, _, _, h => nomatch h
  | depth + 1, j, node, h => by
    unfold ofJson? at h
    split at h
    next name value =>
      split at h
      · exact loaded_of_leafOfJson? h
      · split at h
        · exact (loaded_of_conditionalOfJson? depth value node h).mono (Nat.le_succ _)
        · split at h
          next kind _ =>
            obtain ⟨children, hchildren, rfl⟩ := Option.map_eq_some_iff.mp h
            exact (loaded_of_ofJsons? depth value children hchildren).group kind
          · cases h
    · cases h

theorem loaded_of_conditionalOfJson? : (depth : Nat) → (j : Json) → (node : Dep α) →
    conditionalOfJson? depth j = some node → Loaded depth [node]
  | 0, _, _, h => nomatch h
  | depth + 1, j, node, h => by
    rw [conditionalOfJson?] at h
    obtain ⟨field, -, h⟩ := Option.bind_eq_some_iff.mp h
    obtain ⟨flag, -, h⟩ := Option.bind_eq_some_iff.mp h
    obtain ⟨negated, -, h⟩ := Option.bind_eq_some_iff.mp h
    obtain ⟨children, hchildren, h⟩ := Option.bind_eq_some_iff.mp h
    obtain ⟨value, -, hchildren⟩ := Option.bind_eq_some_iff.mp hchildren
    cases h
    exact (loaded_of_ofJsons? depth value children hchildren).conditional flag negated

theorem loaded_of_ofJsons? : (depth : Nat) → (j : Json) → (nodes : List (Dep α)) →
    ofJsons? depth j = some nodes → Loaded depth nodes
  | 0, _, _, h => nomatch h
  | depth + 1, j, nodes, h => by
    rw [ofJsons?] at h
    refine .of_forall fun node hnode => ?_
    obtain ⟨item, hitem⟩ := Json.exists_of_mem_list? h hnode
    exact (loaded_of_ofJson? depth item node hitem).mono (Nat.le_succ _)

end

end Dep

-- ---------------------------------------------------------------------------
-- Loaded trees and their texts
-- ---------------------------------------------------------------------------

theorem Atom.noBlank_of_readable {a : Atom} (h : Leaf.Readable a) :
    ∀ r ∈ a.useRequirements, ∀ c ∈ r.toList, Text.isBlank c = false := by
  intro r hr c hc
  have huse : a.useRequirements = some r := hr
  have hchars : c ∈ a.chars := by
    rw [chars_eq_parts, useChars, huse]
    simp [hc]
  have hword : Text.IsWord (toString a).toList := h.isWord
  rw [toList_toString] at hword
  exact hword.noBlank c hchars

namespace DepSet

/-- What the text form of a tree needs beside what a document ensures: every flag is one, and no
blank divides an atom. -/
structure Unbroken (deps : DepSet Atom) : Prop where
  flags : ∀ flag ∈ Dep.flagsAll deps, IsFlag flag
  uses : ∀ a ∈ Dep.leavesAll deps, ∀ r ∈ a.useRequirements, ∀ c ∈ r.toList,
    Text.isBlank c = false

theorem Printable.unbroken {deps : DepSet Atom} (h : Printable deps) : Unbroken deps := by
  obtain ⟨hleaves, hflags⟩ := (Dep.spellableAll_iff deps).mp h.spellable
  exact ⟨hflags, fun a ha => Atom.noBlank_of_readable (hleaves a ha)⟩

theorem Unbroken.of_same {deps deps' : DepSet Atom} (h : Unbroken deps')
    (hsame : Dep.sameAllBy Atom.same deps' deps = true) : Unbroken deps := by
  have huse : ∀ a b : Atom, a.same b = true → a.useRequirements = b.useRequirements :=
    fun a b hab => (Atom.same_iff.mp hab).2.2.2.2.2.2
  obtain ⟨hflags, huses⟩ := Dep.parts_of_sameAllBy huse deps' deps hsame
  constructor
  · rw [← hflags]
    exact h.flags
  · intro a ha
    have hmem : a.useRequirements ∈ (Dep.leavesAll deps').map (·.useRequirements) :=
      huses ▸ List.mem_map_of_mem ha
    obtain ⟨b, hb, heq⟩ := List.mem_map.mp hmem
    rw [← heq]
    exact h.uses b hb

theorem Unbroken.printable {deps : DepSet Atom} (h : Unbroken deps)
    (hloaded : Dep.Loaded Json.maxDepth deps) : Printable deps := by
  refine ⟨(Dep.spellableAll_iff deps).mpr ⟨fun a ha => ?_, h.flags⟩,
    Nat.le_trans hloaded.depth (by decide)⟩
  obtain ⟨word, hread⟩ := hloaded.leaves a ha
  exact Atom.readable (Atom.read_ok (Atom.read_of_parse hread)).1 (h.uses a ha)

/-- A tree that is loaded from a document is read again from its text, as an equal one, exactly if
no flag and no atom of it is broken. -/
theorem parse_print_of_loaded {text : String} {deps : DepSet Atom}
    (h : (Json.ofString? text).bind ofJson? = some deps) :
    (deps.Unbroken → parse deps.print = .ok deps) ∧
      ∀ deps', parse deps.print = .ok deps' → Dep.sameAllBy Atom.same deps' deps = true →
        deps.Unbroken := by
  obtain ⟨j, -, hj⟩ := Option.bind_eq_some_iff.mp h
  have hloaded : Dep.Loaded Json.maxDepth deps := Dep.loaded_of_ofJsons? Json.maxDepth j deps hj
  constructor
  · intro hunbroken
    exact (hunbroken.printable hloaded).parse_print
  · intro deps' hparse hsame
    exact (Printable.of_parse hparse).unbroken.of_same hsame

theorem parse_print_of_loaded_nested :
    ∃ a : Atom,
      let deps : DepSet Atom := [.leaf a, .conditional "x" true [.group .anyOf []]]
      (Json.ofString? deps.toJson.indented).bind ofJson? = some deps ∧
        deps.print = "a/b[y] !x? ( || ( ) )" ∧ deps.Unbroken ∧ parse deps.print = .ok deps := by
  refine ⟨{ Atom.ofKey ⟨some "a", "b"⟩ with useRequirements := some "y" }, ?_⟩
  intro deps
  have hload : (Json.ofString? deps.toJson.indented).bind ofJson? = some deps := by
    rw [ofString?_toJson]
    rfl
  have hunbroken : deps.Unbroken := by
    constructor
    · intro flag hflag
      obtain rfl : flag = "x" := by simpa [deps, Dep.flagsAll, Dep.flags] using hflag
      exact (isFlagName_iff "x").mp (by decide)
    · intro a ha r hr c hc
      obtain rfl : a = _ := by simpa [deps, Dep.leavesAll, Dep.leaves] using ha
      cases hr
      obtain rfl : c = 'y' := by simpa using hc
      rfl
  exact ⟨hload, by rfl, hunbroken, (parse_print_of_loaded hload).1 hunbroken⟩

theorem parse_print_of_loaded_flagless :
    let deps : DepSet Atom := [.conditional "" false []]
    (Json.ofString? deps.toJson.indented).bind ofJson? = some deps ∧ deps.print = "? ( )" ∧
      (parse deps.print : Except ExpressionError (DepSet Atom)) =
        .error (.invalidCondition "?") := by
  intro deps
  have hload : (Json.ofString? deps.toJson.indented).bind ofJson? = some deps := by
    rw [ofString?_toJson]
    rfl
  have hprint : deps.print = "? ( )" := by rfl
  exact ⟨hload, hprint, by rw [hprint]; rfl⟩

end DepSet

end PackageAlgebra
