import PackageAlgebra.Atom.Basic

/-! # Writing atoms -/

namespace PackageAlgebra

def VersionBound.chars (b : VersionBound) : List Char :=
  '-' :: b.version.chars ++ if b.operator = .equalGlob then ['*'] else []

def Slot.chars (s : Slot) : List Char :=
  s.name.toList ++ match s.subslot with
    | some subslot => '/' :: subslot.toList
    | none => []

namespace Atom

def slotChars (a : Atom) : List Char :=
  if a.slot.isNone && a.slotOperator.isNone then []
  else ':' :: (a.slot.elim [] Slot.chars ++ a.slotOperator.elim [] SlotOperator.chars)

def chars (a : Atom) : List Char :=
  a.blocker.elim [] Blocker.chars ++ a.bound.elim [] (·.operator.sign) ++ a.key.chars ++
    a.bound.elim [] VersionBound.chars ++ a.slotChars ++
    a.repository.elim [] (fun r => ':' :: ':' :: r.toList) ++
    a.useRequirements.elim [] (fun r => '[' :: r.toList ++ [']'])

instance : ToString Atom where
  toString a := String.ofList a.chars

end Atom

end PackageAlgebra
