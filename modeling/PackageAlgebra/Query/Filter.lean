import PackageAlgebra.Atom.Basic
import PackageAlgebra.Error
import PackageAlgebra.Package.Basic
import PackageAlgebra.Pattern.Basic
import PackageAlgebra.Pattern.Parser
import PackageAlgebra.Text
import PackageAlgebra.Value

/-!
# Filters

A filter is a list of conditions, all of which a package has to meet. The first
that is not met, or that cannot be answered, decides. What a predicate answers
is up to its owner, so each call of one is part of what happens. A keyword such
as `description_short` names the attribute spelled like that or, if there is
none, the one below a namespace; the first path that leads to one is remembered
and tried before all others.
-/

namespace PackageAlgebra

-- ---------------------------------------------------------------------------
-- Keywords as attribute paths
-- ---------------------------------------------------------------------------

structure AttributePath where
  name : String
  resolved : Option String
deriving DecidableEq, Repr

namespace AttributePath

def ofName (name : String) : AttributePath :=
  ⟨name, none⟩

def flattened (space : String) : List Char :=
  space.toList.map fun c => if c = '.' then '_' else c

/-- The path below the namespace that the keyword may mean. Only what stands for the
namespace is read as dotted; the rest is kept as it is. -/
def reading? (name space : String) : Option String :=
  match (flattened space ++ ['_']).isPrefixOf? name.toList with
  | some [] | none => none
  | some rest => some (space ++ "." ++ String.ofList rest)

def deepestFirst (namespaces : List String) : List String :=
  namespaces.mergeSort fun a b => b.utf8ByteSize ≤ a.utf8ByteSize

/-- What the keyword may mean, in the order in which it is tried. -/
def candidates (name : String) (namespaces : List String) : List String :=
  name :: (deepestFirst namespaces).filterMap (reading? name)

variable {P : Type} [Package P]

def firstAttribute? (p : P) (paths : List String) : Option (String × Value) :=
  paths.findSome? fun path => (Package.attribute? p path).map (path, ·)

/-- The value that the keyword names on a package, and the keyword with what it remembers. -/
def resolve (path : AttributePath) (p : P) : Except Error Value × AttributePath :=
  -- a package that lacks the remembered path is asked for all of them anew
  match path.resolved.bind (Package.attribute? p) with
  | some value => (.ok value, path)
  | none =>
    match firstAttribute? p (candidates path.name (Package.namespaces p)) with
    | some (found, value) => (.ok value, { path with resolved := path.resolved.or (some found) })
    | none => (.error (.attributeNotFound path.name (Package.key p)), path)

def display (path : AttributePath) : String :=
  let resolved := match path.resolved with
    | some found => "Some(" ++ Text.quoted found ++ ")"
    | none => "None"
  "AttributePath \x7b name: " ++ Text.quoted path.name ++ ", resolved: " ++ resolved ++ " \x7d"

end AttributePath

-- ---------------------------------------------------------------------------
-- Tests on values
-- ---------------------------------------------------------------------------

inductive ValueTest
  | equals (value : Value)
  | pattern (p : Pattern)
  | contains (candidates : List ValueTest)
deriving Inhabited

namespace ValueTest

/-- The test for texts that the pattern matches from end to end. -/
def ofPattern (text : String) : Except Error ValueTest :=
  match Pattern.parse? (Pattern.anchored text.toList) with
  | some p => .ok (.pattern p)
  | none => .error (.badPattern text)

def isWithin (needle s : String) : Bool :=
  (Text.cutFirst? needle.toList s.toList).isSome

mutual

def holds : ValueTest → Value → Bool
  | .equals expected, value => expected == value
  | .pattern p, value => p.search value.display.toList
  | .contains candidates, .list items => anyOnItems candidates items
  | .contains candidates, .text s => anyWithin candidates s
  | .contains _, _ => false

def anyOnItems : List ValueTest → List Value → Bool
  | [], _ => false
  | test :: tests, items => items.any (fun item => holds test item) || anyOnItems tests items

/-- Whether some candidate is a text within `s` or else holds for `s` itself. -/
def anyWithin : List ValueTest → String → Bool
  | [], _ => false
  | .equals (.text needle) :: tests, s => isWithin needle s || anyWithin tests s
  | test :: tests, s => holds test (.text s) || anyWithin tests s

end

end ValueTest

-- ---------------------------------------------------------------------------
-- Filters
-- ---------------------------------------------------------------------------

/-- A predicate on packages under the number by which its calls are told apart. -/
structure Predicate (P : Type) where
  label : Nat
  holds : P → Bool

inductive Condition (P : Type)
  | atom (a : Atom)
  | attribute (path : AttributePath) (test : ValueTest)
  | predicate (p : Predicate P)
  | all (conditions : List (Condition P))

structure Filter (P : Type) where
  conditions : List (Condition P)

structure Call (P : Type) where
  label : Nat
  package : P
deriving DecidableEq, Repr

/-- What came of asking about a package: the answer, the calls made on the way, and what was
asked, with what it remembers now. -/
structure Inspection (P α : Type) where
  answer : Except Error Bool
  calls : List (Call P)
  asked : α

def Inspection.map (f : α → β) (i : Inspection P α) : Inspection P β :=
  ⟨i.answer, i.calls, f i.asked⟩

variable {P : Type} [Package P]

mutual

def Condition.inspect (p : P) : Condition P → Inspection P (Condition P)
  | .atom a => ⟨.ok (a.contains p), [], .atom a⟩
  | .attribute path test =>
    let (value, path) := path.resolve p
    ⟨value.map test.holds, [], .attribute path test⟩
  | .predicate q => ⟨.ok (q.holds p), [⟨q.label, p⟩], .predicate q⟩
  | .all conditions => (Condition.inspectAll p conditions).map .all

def Condition.inspectAll (p : P) : List (Condition P) → Inspection P (List (Condition P))
  | [] => ⟨.ok true, [], []⟩
  | condition :: rest =>
    let first := condition.inspect p
    match first.answer with
    | .ok true =>
      let others := Condition.inspectAll p rest
      ⟨others.answer, first.calls ++ others.calls, first.asked :: others.asked⟩
    -- the conditions behind it are not asked and remember nothing new
    | answer => ⟨answer, first.calls, first.asked :: rest⟩

end

namespace Filter

def empty : Filter P :=
  ⟨[]⟩

def ofAtom (a : Atom) : Filter P :=
  ⟨[.atom a]⟩

def and (f g : Filter P) : Filter P :=
  ⟨f.conditions ++ g.conditions⟩

omit [Package P] in
@[simp] theorem conditions_and (f g : Filter P) :
    (f.and g).conditions = f.conditions ++ g.conditions :=
  rfl

def nested (f : Filter P) : Condition P :=
  .all f.conditions

def size (f : Filter P) : Nat :=
  f.conditions.length

def inspect (f : Filter P) (p : P) : Inspection P (Filter P) :=
  (Condition.inspectAll p f.conditions).map Filter.mk

def display (f : Filter P) : String :=
  "Filter \x7b matchers: " ++ toString f.size ++ " \x7d"

end Filter

end PackageAlgebra
