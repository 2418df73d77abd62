import PackageAlgebra.Atom.Basic
import PackageAlgebra.Text
import PackageAlgebra.Version

/-!
# Reading atoms

The optional parts are cut off one at a time: blocker and operator in front,
then USE requirements, repository, slot and star from the end. What is left is
the key, with the version behind its first hyphen that begins one.
-/

namespace PackageAlgebra

inductive AtomFault
  | empty
  | unbalancedUse
  | invalidRepository
  | invalidSlot
  | operatorWithoutVersion
  | versionWithoutOperator
  | invalidKey
deriving DecidableEq, Repr

def AtomFault.reason : AtomFault → String
  | .empty => "empty atom"
  | .unbalancedUse => "unbalanced USE dependency"
  | .invalidRepository => "invalid repository name"
  | .invalidSlot => "invalid slot"
  | .operatorWithoutVersion => "version operator without version"
  | .versionWithoutOperator => "version without operator"
  | .invalidKey => "invalid package key"

inductive AtomError
  | key (e : KeyError)
  | atom (fault : AtomFault) (text : String)
deriving DecidableEq, Repr

def AtomError.reason : AtomError → String
  | .key e => e.reason
  | .atom fault text => s!"{fault.reason}: '{text}'"

def AtomError.message (e : AtomError) : String :=
  s!"Invalid atom: {e.reason}"

namespace Atom

def readBlocker : List Char → Option Blocker × List Char
  | '!' :: '!' :: cs => (some .strong, cs)
  | '!' :: cs => (some .weak, cs)
  | cs => (none, cs)

def readOperator : List Char → Option Operator × List Char
  | '<' :: '=' :: cs => (some .lessOrEqual, cs)
  | '>' :: '=' :: cs => (some .greaterOrEqual, cs)
  | '<' :: cs => (some .less, cs)
  | '>' :: cs => (some .greater, cs)
  | '=' :: cs => (some .equal, cs)
  | '~' :: cs => (some .approximate, cs)
  | cs => (none, cs)

/-- Cuts off the USE requirements, from the last opening bracket on. -/
def readUse (cs : List Char) : Except AtomFault (Option String × List Char) :=
  if cs.getLast? = some ']' then
    match Text.cutLast? '[' cs.dropLast with
    | some (before, requirements) => .ok (some (String.ofList requirements), before)
    | none => .error .unbalancedUse
  else .ok (none, cs)

def readRepository (cs : List Char) : Except AtomFault (Option String × List Char) :=
  match Text.cutFirst? [':', ':'] cs with
  | some (before, name) =>
    if Text.isRepositoryName name then .ok (some (String.ofList name), before)
    else .error .invalidRepository
  | none => .ok (none, cs)

def readSlotOperator (cs : List Char) : Option SlotOperator × List Char :=
  if cs = ['*'] then (some .star, [])
  else if cs.getLast? = some '=' then (some .equal, cs.dropLast)
  else (none, cs)

def readSlotName (cs : List Char) : Except AtomFault (Option Slot) :=
  if cs.isEmpty then .ok none
  else
    match Text.cutFirst? ['/'] cs with
    | some (name, subslot) =>
      if Text.isSlotName name && Text.isSlotName subslot then
        .ok (some ⟨String.ofList name, some (String.ofList subslot)⟩)
      else .error .invalidSlot
    | none =>
      if Text.isSlotName cs then .ok (some ⟨String.ofList cs, none⟩) else .error .invalidSlot

def readSlot (cs : List Char) :
    Except AtomFault ((Option Slot × Option SlotOperator) × List Char) :=
  match Text.cutFirst? [':'] cs with
  | some (before, behind) =>
    let (operator, name) := readSlotOperator behind
    (readSlotName name).map fun slot => ((slot, operator), before)
  | none => .ok ((none, none), cs)

/-- Cuts off the star of a glob; only `=` can have one. -/
def readStar (operator : Option Operator) (cs : List Char) : Option Operator × List Char :=
  if operator = some .equal && cs.getLast? = some '*' then (some .equalGlob, cs.dropLast)
  else (operator, cs)

/-- Takes `name-version` apart at the first hyphen behind `name`, which is not empty, whose
rest is a version. -/
def splitVersionFrom (name : List Char) : List Char → Option (List Char × Version)
  | [] => none
  | c :: cs =>
    if c = '-' && !name.isEmpty then
      match Version.parse (String.ofList cs) with
      | .ok version => some (name, version)
      | .error _ => splitVersionFrom (name ++ [c]) cs
    else splitVersionFrom (name ++ [c]) cs

def splitVersion (cs : List Char) : Option (List Char × Version) :=
  splitVersionFrom [] cs

def readBound (operator : Option Operator) (cs : List Char) :
    Except AtomFault (Option VersionBound × List Char) :=
  match operator, splitVersion cs with
  | some operator, some (name, version) => .ok (some ⟨operator, version⟩, name)
  | some _, none => .error .operatorWithoutVersion
  | none, some _ => .error .versionWithoutOperator
  | none, none => .ok (none, cs)

def readKey (cs : List Char) : Except AtomFault PackageKey :=
  match PackageKey.parse (String.ofList cs) with
  | .ok key => .ok key
  | .error _ => .error .invalidKey

def read (text : List Char) : Except AtomFault Atom := do
  let trimmed := Text.trim text
  if trimmed.isEmpty then throw .empty
  let (blocker, rest) := readBlocker trimmed
  let (operator, rest) := readOperator rest
  let (useRequirements, rest) ← readUse rest
  let (repository, rest) ← readRepository rest
  let ((slot, slotOperator), rest) ← readSlot rest
  -- what is left ends with the version, or with the star of its glob
  let (operator, rest) := readStar operator rest
  let (bound, rest) ← readBound operator rest
  let key ← readKey rest
  return { blocker, key, bound, slot, slotOperator, repository, useRequirements }

def parse (text : String) : Except AtomError Atom :=
  match read text.toList with
  | .ok a => .ok a
  | .error fault => .error (.atom fault text)

end Atom

end PackageAlgebra
