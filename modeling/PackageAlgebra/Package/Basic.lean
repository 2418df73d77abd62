import PackageAlgebra.Text
import PackageAlgebra.Value
import PackageAlgebra.Version

/-!
# Packages

A key names a family of packages: a category, which may be left out, and a name
in it. Every kind of package has an identity, answers attribute paths and
declares which names have paths below them.
-/

namespace PackageAlgebra

structure PackageKey where
  category : Option String
  name : String
deriving DecidableEq, Repr

inductive KeyError
  | invalidCategory (text : String)
  | invalidName (text : String)
deriving DecidableEq, Repr

def KeyError.reason : KeyError → String
  | .invalidCategory text => s!"invalid category in '{text}'"
  | .invalidName text => s!"invalid package name in '{text}'"

namespace PackageKey

def chars (key : PackageKey) : List Char :=
  match key.category with
  | some category => category.toList ++ '/' :: key.name.toList
  | none => key.name.toList

instance : ToString PackageKey where
  toString key := String.ofList key.chars

def isComplete (key : PackageKey) : Bool :=
  key.category.isSome

def slash? (key : PackageKey) : Option Nat :=
  key.category.map String.length

instance : Ord PackageKey where
  compare a b := (compare a.chars b.chars).then (compare a.slash? b.slash?)

def parse (text : String) : Except KeyError PackageKey :=
  match Text.cutFirst? ['/'] text.toList with
  | some (category, name) =>
    if !Text.isCategoryName category then .error (.invalidCategory text)
    else if !Text.isPackageName name then .error (.invalidName text)
    else .ok ⟨some (String.ofList category), String.ofList name⟩
  | none =>
    if !Text.isPackageName text.toList then .error (.invalidName text)
    else .ok ⟨none, text⟩

end PackageKey

structure Identity where
  key : PackageKey
  version : Version
  slot : String
  subslot : String
  repository : Option String
  priority : Int32
deriving DecidableEq, Repr

/-- The revision as a number, or as text where it is past the range of numbers. -/
def Version.revisionValue (v : Version) : Value :=
  if v.revision < 0x8000000000000000 then .int v.revision.toNat
  else .text (toString v.revision.toNat)

namespace Identity

def attributes : List (String × (Identity → Value)) :=
  [("key", fun i => .text (toString i.key)),
    ("key.category", fun i => .ofOption i.key.category),
    ("key.package", fun i => .text i.key.name),
    ("version", fun i => .text (toString i.version)),
    ("version.without_revision", fun i => .text i.version.base),
    ("version.revision", fun i => i.version.revisionValue),
    ("slot", fun i => .text i.slot),
    ("subslot", fun i => .text i.subslot),
    ("repository", fun i => .ofOption i.repository)]

def attribute? (i : Identity) (path : String) : Option Value :=
  (attributes.lookup path).map (· i)

def namespaces : List String :=
  ["key", "version"]

/-- Key, version, slot and repository in the way that an atom spells them. -/
def chars (i : Identity) : List Char :=
  i.key.chars ++ '-' :: i.version.chars ++ ':' :: i.slot.toList ++
    match i.repository with
    | some repository => ':' :: ':' :: repository.toList
    | none => []

def display (i : Identity) : String :=
  String.ofList i.chars

/-- Key, version and priority decide in turn. -/
def compareIdentities (a b : Identity) : Ordering :=
  (compare a.key b.key).then ((compare a.version b.version).then (compare a.priority b.priority))

end Identity

class Package (P : Type) where
  identity : P → Identity
  attribute? : P → String → Option Value
  namespaces : P → List String

namespace Package

variable {P : Type} [Package P]

def key (p : P) : PackageKey :=
  (identity p).key

/-- The order of packages: the better of two packages of one key comes later. -/
def compareTo (p q : P) : Ordering :=
  (identity p).compareIdentities (identity q)

end Package

/-- Any package, seen through its answers alone. -/
structure AnyPackage where
  identity : Identity
  attribute? : String → Option Value
  namespaces : List String

namespace AnyPackage

instance : Package AnyPackage where
  identity p := p.identity
  attribute? p := p.attribute?
  namespaces p := p.namespaces

def of {P : Type} [Package P] (p : P) : AnyPackage :=
  ⟨Package.identity p, Package.attribute? p, Package.namespaces p⟩

def plain (i : Identity) : AnyPackage :=
  ⟨i, i.attribute?, Identity.namespaces⟩

def extended (i : Identity) (more : List (String × Value)) (namespaces : List String) :
    AnyPackage :=
  ⟨i, fun path => (i.attribute? path).or (more.lookup path), Identity.namespaces ++ namespaces⟩

end AnyPackage

end PackageAlgebra
