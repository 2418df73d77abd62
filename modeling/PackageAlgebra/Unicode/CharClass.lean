/-!
# Classes of characters

A class is kept as the runs of its code points in ascending order, no run
touching the next. The surrogates are no characters: the character behind D7FF
is E000. A table writes the runs as pairs of numbers: how many code points lie
between the run and the one before it, and how many lie in it.
-/

namespace PackageAlgebra.Unicode

/-- The runs of a table from the code point `next` on. -/
def runsFrom (next : Nat) : List Nat → List (Nat × Nat)
  | gap :: length :: rest =>
    (next + gap, next + gap + length - 1) :: runsFrom (next + gap + length) rest
  | _ => []

def runs (lines : List String) : List (Nat × Nat) :=
  runsFrom 0 (lines.flatMap fun line => (line.splitOn " ").filterMap (·.toNat?))

def inRuns (set : List (Nat × Nat)) (c : Char) : Bool :=
  set.any fun run => run.1 ≤ c.toNat && c.toNat ≤ run.2

end PackageAlgebra.Unicode

namespace PackageAlgebra

structure CharClass where
  runs : List (Nat × Nat)
deriving DecidableEq, Repr

def nextChar (n : Nat) : Nat :=
  if n = 0xD7FF then 0xE000 else n + 1

def prevChar (n : Nat) : Nat :=
  if n = 0xE000 then 0xD7FF else n - 1

def lastChar : Nat := 0x10FFFF

namespace CharClass

def mem (a : CharClass) (c : Char) : Bool :=
  Unicode.inRuns a.runs c

def ofTable (lines : List String) : CharClass :=
  ⟨Unicode.runs lines⟩

def empty : CharClass := ⟨[]⟩

def all : CharClass := ⟨[(0, lastChar)]⟩

def single (c : Char) : CharClass := ⟨[(c.toNat, c.toNat)]⟩

def range (first last : Char) : CharClass := ⟨[(first.toNat, last.toNat)]⟩

/-- Joins the run from `first` to `last` with the runs behind it that it reaches, and so on
with these; the list is in the order of its first code points. -/
def joinFrom (first last : Nat) : List (Nat × Nat) → List (Nat × Nat)
  | [] => [(first, last)]
  | (a, b) :: rest =>
    if a ≤ last + 1 then joinFrom first (max last b) rest
    else (first, last) :: joinFrom a b rest

def join : List (Nat × Nat) → List (Nat × Nat)
  | [] => []
  | (a, b) :: rest => joinFrom a b rest

def mergeAt (run : Nat × Nat) (merged : List (Nat × Nat) → List (Nat × Nat)) :
    List (Nat × Nat) → List (Nat × Nat)
  | [] => run :: merged []
  | other :: rest =>
    if run.1 ≤ other.1 then run :: merged (other :: rest) else other :: mergeAt run merged rest

def merge : List (Nat × Nat) → List (Nat × Nat) → List (Nat × Nat)
  | [], others => others
  | run :: rest, others => mergeAt run (merge rest) others

def union (a b : CharClass) : CharClass :=
  ⟨join (merge a.runs b.runs)⟩

def unionAll (classes : List CharClass) : CharClass :=
  classes.foldr union empty

def clip (first last : Nat) (runs : List (Nat × Nat)) : List (Nat × Nat) :=
  (runs.takeWhile (·.1 ≤ last)).map fun run => (max first run.1, min last run.2)

def interFrom : List (Nat × Nat) → List (Nat × Nat) → List (Nat × Nat)
  | [], _ => []
  | (first, last) :: rest, others =>
    let others := others.dropWhile (·.2 < first)
    clip first last others ++ interFrom rest others

def inter (a b : CharClass) : CharClass :=
  ⟨interFrom a.runs b.runs⟩

def cut (first last : Nat) : List (Nat × Nat) → List (Nat × Nat)
  | [] => [(first, last)]
  | (a, b) :: rest =>
    if last < a then [(first, last)]
    else
      (if first < a then [(first, prevChar a)] else []) ++
        if b < last then cut (nextChar b) last rest else []

def minusFrom : List (Nat × Nat) → List (Nat × Nat) → List (Nat × Nat)
  | [], _ => []
  | (first, last) :: rest, others =>
    let others := others.dropWhile (·.2 < first)
    cut first last others ++ minusFrom rest others

def minus (a b : CharClass) : CharClass :=
  ⟨minusFrom a.runs b.runs⟩

/-- The gaps behind `last`, between the runs and after them. Where only surrogates lie between
two runs the gap turns round and is the two characters beside it. -/
def gapsFrom (last : Nat) : List (Nat × Nat) → List (Nat × Nat)
  | [] => if last < lastChar then [(nextChar last, lastChar)] else []
  | (a, b) :: rest =>
    (min (nextChar last) (prevChar a), max (nextChar last) (prevChar a)) :: gapsFrom b rest

def complement (a : CharClass) : CharClass :=
  match a.runs with
  | [] => all
  | (first, last) :: rest =>
    ⟨(if 0 < first then [(0, prevChar first)] else []) ++ gapsFrom last rest⟩

def oneOf (a b : CharClass) : CharClass :=
  (a.union b).minus (a.inter b)

def negatedIf (negated : Bool) (a : CharClass) : CharClass :=
  if negated then a.complement else a

def isAscii (a : CharClass) : Bool :=
  a.runs.all (·.2 < 0x80)

def onlyChar? (a : CharClass) : Option Char :=
  match a.runs with
  | [(first, last)] => if first = last then some (Char.ofNat first) else none
  | _ => none

instance : Union CharClass := ⟨union⟩

instance : Inter CharClass := ⟨inter⟩

instance : SDiff CharClass := ⟨minus⟩

end CharClass

end PackageAlgebra
