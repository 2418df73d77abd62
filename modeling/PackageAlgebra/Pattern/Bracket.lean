import PackageAlgebra.Pattern.Primitive

/-!
# Bracketed classes

A class in square brackets holds characters, ranges, shorthands, named classes
and further brackets. `&&`, `--` and `~~` combine what stands before them with
what follows, from left to right.
-/

namespace PackageAlgebra.Pattern

inductive SetOperator
  | intersection
  | difference
  | symmetric
deriving DecidableEq, Repr

def SetOperator.apply : SetOperator → CharClass → CharClass → CharClass
  | .intersection, a, b => a ∩ b
  | .difference, a, b => a \ b
  | .symmetric, a, b => a.oneOf b

/-- A class under construction: the operands already combined, with the operator that waits
for its right side and the depth of their tree; the union read since, with the number of its
items and the depth of brackets in them. -/
structure PartialSet where
  left : Option (CharClass × SetOperator × Nat)
  items : CharClass
  count : Nat
  depth : Nat

namespace PartialSet

def empty : PartialSet := ⟨none, .empty, 0, 0⟩

def add (s : PartialSet) (set : CharClass) (height : Nat) : PartialSet :=
  { s with items := s.items ∪ set, count := s.count + 1, depth := Nat.max s.depth height }

def combined (flags : Flags) (s : PartialSet) : CharClass :=
  match s.left with
  | none => s.items
  | some (left, operator, _) => operator.apply (flags.fold left) (flags.fold s.items)

/-- The depth of the tree of all that has been read; a single item needs no node of its own. -/
def height (s : PartialSet) : Nat :=
  let itemsHeight := if s.count < 2 then s.depth else s.depth + 1
  match s.left with
  | none => itemsHeight
  | some (_, _, leftHeight) => Nat.max leftHeight itemsHeight + 1

def operator (flags : Flags) (s : PartialSet) (op : SetOperator) : PartialSet :=
  { empty with left := some (s.combined flags, op, s.height) }

end PartialSet

def itemClass? (flags : Flags) : Primitive → Option CharClass
  | .literal c _ => if flags.ascii && c.toNat ≥ 0x80 then none else some (.single c)
  | .shorthand kind negated => shorthandClass? flags kind negated
  | .property set negated => propertyClass? flags set negated
  | _ => none

def readItem (flags : Flags) : List Char → Option (Primitive × List Char)
  | [] => none
  | '\\' :: cs => readEscape flags cs
  | c :: cs => some (.literal c false, cs)

/-- The character that decides what a hyphen is, from behind it. Where blanks are left out, the
one behind a comment mark is taken, though it is part of the comment. -/
def peekBehind (flags : Flags) (behind : List Char) : Option Char :=
  if !flags.extended then behind.head?
  else
    let seen := match behind.dropWhile Text.isBlank with
      | '#' :: comment => comment.dropWhile Text.isBlank
      | cs => cs
    seen.head?.or behind.head?

def isRangeMark (flags : Flags) (behind : List Char) : Bool :=
  (peekBehind flags behind).all fun c => c != ']' && c != '-'

def readItemOrRange (flags : Flags) (cs : List Char) : Option (CharClass × List Char) := do
  let (first, rest) ← readItem flags cs
  match flags.next rest with
  | [] => none
  | '-' :: behind =>
    if isRangeMark flags behind then
      let (last, rest) ← readItem flags (flags.next behind)
      match first, last with
      | .literal a _, .literal b _ =>
        if a ≤ b && !(flags.ascii && b.toNat ≥ 0x80) then some (.range a b, rest) else none
      | _, _ => none
    else return (← itemClass? flags first, '-' :: behind)
  | rest => return (← itemClass? flags first, rest)

def readNamed (flags : Flags) (cs : List Char) : Option (Option CharClass × List Char) :=
  match cs with
  | ':' :: cs =>
    let (negated, cs) := match cs with
      | '^' :: more => (true, more)
      | cs => (false, cs)
    match Text.cutFirst? [':'] cs with
    | some (name, ']' :: rest) =>
      (CharClass.named? (String.ofList name)).map fun set =>
        (flags.checked? (.negatedIf negated (flags.fold set)), rest)
    | _ => none
  | _ => none

def takeHyphens (flags : Flags) : Nat → PartialSet → List Char → PartialSet × List Char
  | fuel + 1, s, '-' :: cs => takeHyphens flags fuel (s.add (.single '-') 0) (flags.next cs)
  | _, s, cs => (s, cs)

/-- Reads the start of a class from behind its bracket: whether it is negated, and hyphens or a
closing bracket that stand for themselves there. -/
def readOpening (flags : Flags) (cs : List Char) : Bool × PartialSet × List Char :=
  let (negated, cs) := match flags.next cs with
    | '^' :: more => (true, flags.next more)
    | cs => (false, cs)
  match cs with
  | ']' :: more => (negated, PartialSet.empty.add (.single ']') 0, flags.next more)
  | cs => (negated, takeHyphens flags cs.length .empty cs)

mutual

def readBracket (flags : Flags) : Nat → List Char → Option ((CharClass × Nat) × List Char)
  | 0, _ => none
  | fuel + 1, cs => do
    let (negated, start, cs) := readOpening flags cs
    let (s, rest) ← readItems flags fuel start cs
    let set ← flags.checked? (.negatedIf negated (flags.fold (s.combined flags)))
    return ((set, s.height + 1), rest)

def readItems (flags : Flags) : Nat → PartialSet → List Char → Option (PartialSet × List Char)
  | 0, _, _ => none
  | fuel + 1, s, cs =>
    match flags.next cs with
    | [] => none
    | ']' :: cs => some (s, cs)
    | '[' :: cs =>
      match readNamed flags cs with
      | some (set, rest) => do readItems flags fuel (s.add (← set) 0) rest
      | none => do
        let ((set, height), rest) ← readBracket flags fuel cs
        readItems flags fuel (s.add set height) rest
    | '&' :: '&' :: cs => readItems flags fuel (s.operator flags .intersection) cs
    | '-' :: '-' :: cs => readItems flags fuel (s.operator flags .difference) cs
    | '~' :: '~' :: cs => readItems flags fuel (s.operator flags .symmetric) cs
    | cs => do
      let (set, rest) ← readItemOrRange flags cs
      readItems flags fuel (s.add set 0) rest

end

end PackageAlgebra.Pattern
