import PackageAlgebra.Pattern.Basic

/-!
# Putting patterns together

Sequences are kept with neighbouring literals joined and nothing empty among
them, and alternatives are made into one class where they can be. The simpler
pattern has the smaller automaton.
-/

namespace PackageAlgebra.Pattern

def ofClass (set : CharClass) : Pattern :=
  match set.onlyChar? with
  | some c => .literal [c]
  | none => .one set

theorem ofClass_single (c : Char) : ofClass (.single c) = .literal [c] := by
  simp [ofClass, CharClass.onlyChar?, CharClass.single]

def items : Pattern → List Pattern
  | .empty => []
  | .seq p q => p.items ++ q.items
  | p => [p]

def branches : Pattern → List Pattern
  | .alt p q => p.branches ++ q.branches
  | p => [p]

def joinLiterals : List Pattern → List Pattern
  | [] => []
  | .literal text :: ps =>
    match joinLiterals ps with
    | .literal more :: ps => .literal (text ++ more) :: ps
    | ps => .literal text :: ps
  | p :: ps => p :: joinLiterals ps

def inSequence : List Pattern → Pattern
  | [] => .empty
  | [p] => p
  | p :: ps => .seq p (inSequence ps)

def sequence (ps : List Pattern) : Pattern :=
  inSequence (joinLiterals (ps.flatMap items))

def inAlternation : List Pattern → Pattern
  | [] => never
  | [p] => p
  | p :: ps => .alt p (inAlternation ps)

def char? : Pattern → Option Char
  | .literal [c] => some c
  | _ => none

def class? : Pattern → Option CharClass
  | .one set => some set
  | _ => none

/-- The class that alternatives make up: all of them characters, or all of them classes. -/
def asClass? (ps : List Pattern) : Option CharClass :=
  match ps.mapM char?, ps.mapM class? with
  | some chars, _ => some (.unionAll (chars.map .single))
  | none, some sets => some (.unionAll sets)
  | none, none => none

/-- Whether a group is part of the pattern. No two groups are the same. -/
def hasGroup : Pattern → Bool
  | .group _ => true
  | .seq p q | .alt p q => p.hasGroup || q.hasGroup
  | .repeated p _ _ => p.hasGroup
  | .empty | .literal _ | .one _ | .assertion _ => false

def commonFront : List Pattern → List Pattern → List Pattern
  | p :: ps, q :: qs => if p = q && !p.hasGroup then p :: commonFront ps qs else []
  | _, _ => []

/-- The parts that all alternatives have at their front; only sequences have such parts. -/
def sharedFront : List Pattern → List Pattern
  | .seq p q :: ps =>
    ps.foldl (fun front p => match p with
      | .seq p q => commonFront front (items (.seq p q))
      | _ => []) (items (.seq p q))
  | _ => []

def partCount : Pattern → Nat
  | .group p | .repeated p _ _ => p.partCount + 1
  | .seq p q | .alt p q => p.partCount + q.partCount + 1
  | .empty | .literal _ | .one _ | .assertion _ => 1

/-- The alternatives as a class, or else with the parts at the front of all of them set before
them; `fuel` is the number of parts. -/
def alternationFrom : Nat → List Pattern → Pattern
  | 0, ps => inAlternation ps
  | fuel + 1, ps =>
    let ps := ps.flatMap branches
    match ps with
    | [p] => p
    | ps =>
      match asClass? ps with
      | some set => ofClass set
      | none =>
        match sharedFront ps with
        | [] => inAlternation ps
        | front =>
          let rests := ps.map fun p => sequence (p.items.drop front.length)
          sequence (front ++ [alternationFrom fuel rests])

def alternation (ps : List Pattern) : Pattern :=
  alternationFrom (ps.foldl (fun n p => n + p.partCount) 1) ps

/-- Repeats a pattern. To repeat what takes up no character more than once adds nothing. -/
def repetition (p : Pattern) (min : Nat) (max : Option Nat) : Pattern :=
  let (min, max) :=
    if p.maxLength = some 0 then (Nat.min min 1, some (Nat.min (max.getD 1) 1)) else (min, max)
  if max = some 0 then .empty
  else if min = 1 && max = some 1 then p
  else .repeated p min max

end PackageAlgebra.Pattern
