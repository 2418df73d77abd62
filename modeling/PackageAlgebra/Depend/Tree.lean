import PackageAlgebra.Atom.Parser
import PackageAlgebra.Atom.Printer
import PackageAlgebra.Version

/-!
# Dependency trees

A dependency specification is a list of nodes: leaves, groups and conditional
blocks. The leaves are atoms for dependencies and plain texts for licences,
flags and the like. A tree is written as words with a blank between any two.
-/

namespace PackageAlgebra

/-- What can tell whether a flag is applied. -/
class AppliedUse (U : Type) where
  isEnabled : U → String → Bool

instance : AppliedUse (List String) where
  isEnabled flags flag := flags.contains flag

instance : AppliedUse (String → Bool) where
  isEnabled test := test

/-- How many of its members a group asks for. -/
inductive GroupKind
  | allOf
  | anyOf
  | exactlyOne
  | atMostOne
deriving DecidableEq, Repr

/-- A node of a dependency tree. A block under `flag` counts if the flag is set, a negated one
if it is not. -/
inductive Dep (α : Type) where
  | leaf (a : α)
  | group (kind : GroupKind) (children : List (Dep α))
  | conditional (flag : String) (negated : Bool) (children : List (Dep α))
deriving Inhabited

abbrev DepSet (α : Type) := List (Dep α)

namespace Dep

def children : Dep α → List (Dep α)
  | .leaf _ => []
  | .group _ children => children
  | .conditional _ _ children => children

def leaf? : Dep α → Option α
  | .leaf a => some a
  | _ => none

/-- Whether the block of a conditional counts; other nodes have no block. -/
def enabled? (applied : String → Bool) : Dep α → Option Bool
  | .conditional flag negated _ => some (negated != applied flag)
  | _ => none

mutual

def hasConditionals : Dep α → Bool
  | .leaf _ => false
  | .group _ children => anyConditionals children
  | .conditional .. => true

def anyConditionals : List (Dep α) → Bool
  | [] => false
  | node :: nodes => hasConditionals node || anyConditionals nodes

end

mutual

/-- The node as it stands under the applied flags: the block of an enabled conditional takes
its place, a disabled one is left out. Groups stay, even empty ones. -/
def resolve (applied : String → Bool) : Dep α → List (Dep α)
  | .leaf a => [.leaf a]
  | .group kind children => [.group kind (resolveAll applied children)]
  | .conditional flag negated children =>
    if negated != applied flag then resolveAll applied children else []

def resolveAll (applied : String → Bool) : List (Dep α) → List (Dep α)
  | [] => []
  | node :: nodes => resolve applied node ++ resolveAll applied nodes

end

mutual

def sameBy (same : α → α → Bool) : Dep α → Dep α → Bool
  | .leaf a, .leaf b => same a b
  | .group k as, .group l bs => k == l && sameAllBy same as bs
  | .conditional f m as, .conditional g n bs => f == g && m == n && sameAllBy same as bs
  | _, _ => false

def sameAllBy (same : α → α → Bool) : List (Dep α) → List (Dep α) → Bool
  | [], [] => true
  | a :: as, b :: bs => sameBy same a b && sameAllBy same as bs
  | _, _ => false

end

end Dep

namespace DepSet

def hasConditionals (deps : DepSet α) : Bool :=
  Dep.anyConditionals deps

/-- The specification under the applied flags, without any conditional. -/
def withoutConditionals (applied : String → Bool) (deps : DepSet α) : DepSet α :=
  Dep.resolveAll applied deps

def toNode (deps : DepSet α) : Dep α :=
  .group .allOf deps

end DepSet

class Leaf (α : Type) where
  read : String → Except AtomError α
  text : α → String
  same : α → α → Bool

instance : Leaf Atom where
  read := Atom.parse
  text := toString
  same := Atom.same

instance : Leaf String where
  read word := .ok word
  text word := word
  same a b := a == b

-- ---------------------------------------------------------------------------
-- Writing
-- ---------------------------------------------------------------------------

/-- The word in front of the opening bracket; a group of all its members has none. -/
def GroupKind.sign? : GroupKind → Option String
  | .allOf => none
  | .anyOf => some "||"
  | .exactlyOne => some "^^"
  | .atMostOne => some "??"

def conditionWord (flag : String) (negated : Bool) : String :=
  (if negated then "!" else "") ++ flag ++ "?"

namespace Dep

variable [Leaf α]

mutual

def words : Dep α → List String
  | .leaf a => [Leaf.text a]
  | .group kind children => kind.sign?.toList ++ "(" :: wordsAll children ++ [")"]
  | .conditional flag negated children =>
    conditionWord flag negated :: "(" :: wordsAll children ++ [")"]

def wordsAll : List (Dep α) → List String
  | [] => []
  | node :: nodes => words node ++ wordsAll nodes

end

def print (node : Dep α) : String :=
  " ".intercalate node.words

end Dep

namespace DepSet

variable [Leaf α]

def words (deps : DepSet α) : List String :=
  Dep.wordsAll deps

def print (deps : DepSet α) : String :=
  " ".intercalate deps.words

end DepSet

end PackageAlgebra
