import PackageAlgebra.Package.Basic
import PackageAlgebra.Version

/-!
# Atoms

An atom such as `>=app-misc/foo-1.2-r1:2/2.1=::gentoo[ssl]` describes a set of
packages; a blocker describes the packages outside that set. A key without
category is met by its name alone. USE requirements are carried along as text.
-/

namespace PackageAlgebra

inductive Blocker
  | weak
  | strong
deriving DecidableEq, Repr

def Blocker.chars : Blocker → List Char
  | .weak => ['!']
  | .strong => ['!', '!']

/-- How a package's version has to stand to the version of a bound. -/
inductive Operator
  | less
  | lessOrEqual
  | equal
  | equalGlob
  | approximate
  | greaterOrEqual
  | greater
deriving DecidableEq, Repr

/-- The sign in front of the key; a glob has the sign of `equal` and a star behind. -/
def Operator.sign : Operator → List Char
  | .less => ['<']
  | .lessOrEqual => ['<', '=']
  | .equal => ['=']
  | .equalGlob => ['=']
  | .approximate => ['~']
  | .greaterOrEqual => ['>', '=']
  | .greater => ['>']

structure VersionBound where
  operator : Operator
  version : Version
deriving DecidableEq, Repr

structure Slot where
  name : String
  subslot : Option String
deriving DecidableEq, Repr

inductive SlotOperator
  | equal
  | star
deriving DecidableEq, Repr

def SlotOperator.chars : SlotOperator → List Char
  | .equal => ['=']
  | .star => ['*']

structure Atom where
  blocker : Option Blocker
  key : PackageKey
  bound : Option VersionBound
  slot : Option Slot
  slotOperator : Option SlotOperator
  repository : Option String
  useRequirements : Option String
deriving DecidableEq, Repr

/-- Two spellings of one bound. -/
def VersionBound.same (a b : VersionBound) : Bool :=
  a.operator == b.operator && a.version.same b.version

namespace Atom

def ofKey (key : PackageKey) : Atom :=
  { blocker := none, key, bound := none, slot := none, slotOperator := none, repository := none,
    useRequirements := none }

def ofSlot (key : PackageKey) (slot : String) : Atom :=
  { ofKey key with slot := some ⟨slot, none⟩ }

def unversioned (a : Atom) : Atom :=
  ofKey a.key

def isBlocking (a : Atom) : Bool :=
  a.blocker.isSome

def version (a : Atom) : Option Version :=
  a.bound.map (·.version)

/-- Equal in every part, with versions compared by their order. -/
def same (a b : Atom) : Bool :=
  a.blocker == b.blocker && a.key == b.key &&
    (match a.bound, b.bound with
      | none, none => true
      | some x, some y => x.same y
      | _, _ => false) &&
    a.slot == b.slot && a.slotOperator == b.slotOperator && a.repository == b.repository &&
    a.useRequirements == b.useRequirements

end Atom

def Operator.admits (op : Operator) (own wanted : Version) : Bool :=
  match op with
  | .less => (compare own wanted).isLT
  | .lessOrEqual => (compare own wanted).isLE
  | .equal => own.same wanted
  | .equalGlob => own.matchesGlob (toString wanted)
  | .approximate => own.sameBase wanted
  | .greaterOrEqual => (compare own wanted).isGE
  | .greater => (compare own wanted).isGT

namespace Atom

def keyMatches (a : Atom) (key : PackageKey) : Bool :=
  if a.key.isComplete then key == a.key else key.name == a.key.name

/-- Whether the package meets every part of the atom. -/
def holdsFor (a : Atom) (i : Identity) : Bool :=
  a.keyMatches i.key &&
    a.bound.all (fun b => b.operator.admits i.version b.version) &&
    a.slot.all (fun s => i.slot == s.name && s.subslot.all (i.subslot == ·)) &&
    a.repository.all (fun r => i.repository == some r)

def contains {P : Type} [Package P] (a : Atom) (p : P) : Bool :=
  a.holdsFor (Package.identity p) != a.isBlocking

end Atom

end PackageAlgebra
