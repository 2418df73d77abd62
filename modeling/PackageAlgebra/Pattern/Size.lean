import PackageAlgebra.Pattern.Simplify
import PackageAlgebra.Unicode.CharClass

/-!
# Sizes of patterns

A pattern is run as two automata over bytes, one that reads a match forward and
one that reads it backward, and is too big if either of them takes more bytes
than the limit. In UTF-8 a run of code points takes the form of some sequences
of byte ranges; sequences with the same ranges at their front share the way
there, as the edges of a tree.
-/

namespace PackageAlgebra.Pattern

-- ---------------------------------------------------------------------------
-- Classes as sequences of bytes
-- ---------------------------------------------------------------------------

abbrev ByteRange := Nat × Nat

/-- The sequences for the numbers from `first` to `last`, the upper part behind `mark` and six
bits in each of the last `count` bytes. -/
def sequencesFrom (mark : Nat) : Nat → Nat → Nat → List (List ByteRange)
  | 0, first, last => [[(mark + first, mark + last)]]
  | count + 1, first, last =>
    let block := 64 ^ (count + 1)
    let within := fun a b first last =>
      (sequencesFrom 0x80 count first last).map ((mark + a, mark + b) :: ·)
    let (a, b) := (first / block, last / block)
    if a = b then within a a (first % block) (last % block)
    else
      -- the blocks at both ends may be there only in part
      let (a', lower) :=
        if first % block = 0 then (a, []) else (a + 1, within a a (first % block) (block - 1))
      let (b', upper) :=
        if last % block = block - 1 then (b, []) else (b - 1, within b b 0 (last % block))
      lower ++ (if a' ≤ b' then within a' b' 0 (block - 1) else []) ++ upper

/-- Code points that are written alike: from the first to the last of them, with a mark and a
number of bytes behind it. -/
structure Encoding where
  first : Nat
  last : Nat
  mark : Nat
  count : Nat

def encodings : List Encoding :=
  [⟨0, 0x7F, 0, 0⟩, ⟨0x80, 0x7FF, 0xC0, 1⟩, ⟨0x800, 0xD7FF, 0xE0, 2⟩, ⟨0xE000, 0xFFFF, 0xE0, 2⟩,
    ⟨0x10000, 0x10FFFF, 0xF0, 3⟩]

def byteSequences (set : CharClass) : List (List ByteRange) :=
  set.runs.flatMap fun run => encodings.flatMap fun e =>
    let first := Nat.max run.1 e.first
    let last := Nat.min run.2 e.last
    if first ≤ last then sequencesFrom e.mark e.count first last else []

mutual

inductive ByteTree
  | leaf
  | node (edges : ByteEdges)

inductive ByteEdges
  | nil
  | cons (range : ByteRange) (below : ByteTree) (rest : ByteEdges)

end

def ByteEdges.ofList : List (ByteRange × ByteTree) → ByteEdges
  | [] => .nil
  | (range, below) :: rest => .cons range below (.ofList rest)

def heads (sequences : List (List ByteRange)) : List ByteRange :=
  (sequences.filterMap (·.head?)).eraseDups

def behindHead (head : ByteRange) (sequences : List (List ByteRange)) : List (List ByteRange) :=
  (sequences.filter (·.head? == some head)).map (·.tail)

def ByteTree.ofSequences : Nat → List (List ByteRange) → ByteTree
  | 0, _ => .leaf
  | depth + 1, sequences =>
    match heads sequences with
    | [] => .leaf
    | heads => .node <| .ofList <| heads.map fun head =>
      (head, ofSequences depth (behindHead head sequences))

-- ---------------------------------------------------------------------------
-- Counting states
-- ---------------------------------------------------------------------------

/-- States, of 32 bytes each, and what else they take up. -/
structure Count where
  states : Nat
  extra : Nat
deriving DecidableEq, Repr

namespace Count

def empty : Count := ⟨0, 0⟩

def bytes (c : Count) : Nat := 32 * c.states + c.extra

def addPlain (c : Count) (count : Nat) : Count :=
  { c with states := c.states + count }

def addBranching (c : Count) (ways : Nat) : Count :=
  ⟨c.states + 1, c.extra + 4 * ways⟩

def addRanges (c : Count) (ranges : Nat) : Count :=
  ⟨c.states + 1, c.extra + 8 * ranges⟩

end Count

/-- Remembers states by their keys in a fixed number of slots, where a new key takes the place
of the one before it. -/
structure Memo (α : Type) where
  slots : Array (Option (α × Nat))

namespace Memo

variable {α : Type}

def empty (size : Nat) : Memo α := ⟨Array.replicate size none⟩

def slot (m : Memo α) (numbers : List Nat) : Nat :=
  let mix := fun (product : UInt64) (n : Nat) => (product ^^^ n.toUInt64) * 1099511628211
  (numbers.foldl mix 14695981039346656037 % m.slots.size.toUInt64).toNat

def find? [BEq α] (m : Memo α) (slot : Nat) (key : α) : Option Nat :=
  match m.slots[slot]? with
  | some (some (known, state)) => if known == key then some state else none
  | _ => none

def insert (m : Memo α) (slot : Nat) (key : α) (state : Nat) : Memo α :=
  ⟨m.slots.setIfInBounds slot (some (key, state))⟩

end Memo

abbrev RangesKey := List (ByteRange × Nat)

def internRanges (key : RangesKey) (c : Count) (memo : Memo RangesKey) :
    Nat × Count × Memo RangesKey :=
  let slot := memo.slot (key.flatMap fun (range, next) => [range.1, range.2, next])
  match memo.find? slot key with
  | some state => (state, c, memo)
  | none => (c.states, c.addRanges key.length, memo.insert slot key c.states)

mutual

def internTree (target : Nat) :
    ByteTree → Count → Memo RangesKey → Nat × Count × Memo RangesKey
  | .leaf, c, memo => (target, c, memo)
  | .node edges, c, memo =>
    let (key, c, memo) := internEdges target edges c memo
    internRanges key c memo

def internEdges (target : Nat) :
    ByteEdges → Count → Memo RangesKey → RangesKey × Count × Memo RangesKey
  | .nil, c, memo => ([], c, memo)
  | .cons range below rest, c, memo =>
    let (state, c, memo) := internTree target below c memo
    let (key, c, memo) := internEdges target rest c memo
    ((range, state) :: key, c, memo)

end

abbrev EdgeKey := Nat × ByteRange

def internEdge (found : Nat × Count × Memo EdgeKey) (range : ByteRange) :
    Nat × Count × Memo EdgeKey :=
  let (state, c, memo) := found
  let slot := memo.slot [state, range.1, range.2]
  match memo.find? slot (state, range) with
  | some known => (known, c, memo)
  | none => (c.states, c.addPlain 1, memo.insert slot (state, range) c.states)

def internSequences (target : Nat) (sequences : List (List ByteRange)) (c : Count) : Count :=
  let interned := sequences.foldl (fun (c, memo) sequence =>
    (sequence.foldl internEdge (target, c, memo)).2) (c, Memo.empty 1000)
  interned.1

/-- How the count grows by a class. Forward, states that read the same are one state; backward,
the sequences share what they have at their front. -/
def growClass (backward : Bool) (set : CharClass) : Count → Count :=
  if set.isAscii then fun c => (c.addPlain 1).addRanges set.runs.length
  else
    let sequences := byteSequences set
    if backward then fun c =>
      let c := c.addBranching sequences.length
      internSequences c.states sequences (c.addPlain 1)
    else
      let tree := ByteTree.ofSequences 4 sequences
      fun c => (internTree c.states tree (c.addPlain 1) (Memo.empty 10000)).2.1

-- ---------------------------------------------------------------------------
-- Patterns
-- ---------------------------------------------------------------------------

def sizeLimit : Nat := 10 * 1024 * 1024

def chunks : List (List UInt8) → List (List (List UInt8))
  | [] => [[]]
  | [] :: words => [] :: chunks words
  | word :: words =>
    match chunks words with
    | chunk :: more => (word :: chunk) :: more
    | [] => [[word]]

/-- Adds the tree that reads one of some words; `depth` is more than the length of the longest.
An earlier word comes first, so that an empty one parts the bytes before it from those behind
it, and the node branches between the parts and its end. -/
def growWords : Nat → List (List UInt8) → Count → Count
  | 0, _, c => c
  | depth + 1, words, c =>
    if words.all (·.isEmpty) then c
    else
      let parts := chunks words
      let (c, ways) := parts.foldl (fun (c, ways) chunk =>
        let bytes := (chunk.filterMap (·.head?)).eraseDups
        let c := bytes.foldl (fun c byte =>
          growWords depth ((chunk.filter (·.head? == some byte)).map (·.tail)) c) c
        match bytes with
        | [] => (c, ways)
        | [_] => (c.addPlain 1, ways + 1)
        | bytes => (c.addRanges bytes.length, ways + 1)) (c, parts.length - 1)
      c.addBranching ways

def growCopies (grow : Count → Count) : Nat → Count → Count
  | 0, c => c
  | copies + 1, c => if c.bytes ≤ sizeLimit then growCopies grow copies (grow c) else c

/-- How the count grows by a part: by one that may be a word, or by some alternatives, with the
words if they are words all of them. -/
inductive Growth
  | one (grow : Count → Count) (word : Option (List UInt8))
  | several (branches : List (Count → Count)) (words : Option (List (List UInt8)))

namespace Growth

def growBranches (c : Count) : List (Count → Count) → Count
  | first :: second :: more =>
    let c := ((second (first c)).addBranching (more.length + 2)).addPlain 1
    more.foldl (fun c grow => grow c) c
  | branches => branches.foldl (fun c grow => grow c) c

def grow (backward : Bool) : Growth → Count → Count
  | .one grow _, c => grow c
  | .several _ (some words), c =>
    let words := if backward then words.map (·.reverse) else words
    growWords ((words.map (·.length)).foldl Nat.max 0 + 1) words (c.addPlain 1)
  | .several branches none, c => growBranches c branches

def branches : Growth → List (Count → Count)
  | .one grow _ => [grow]
  | .several branches _ => branches

def words : Growth → Option (List (List UInt8))
  | .one _ word => word.map fun word => [word]
  | .several _ words => words

end Growth

def growRepetition (grow : Count → Count) (matchesEmpty : Bool) (min : Nat) :
    Option Nat → Count → Count
  | none, c =>
    if 0 < min then (growCopies grow min c).addBranching 2
    else if matchesEmpty then (((grow c).addBranching 2).addBranching 2).addPlain 1
    else grow (c.addBranching 2)
  | some max, c =>
    if min = 0 && max = 1 then (grow (c.addBranching 2)).addPlain 1
    else
      let c := if min = 0 then c.addPlain 1 else growCopies grow min c
      if min = max then c
      else growCopies (fun c => grow (c.addBranching 2)) (max - min) (c.addPlain 1)

def growth (backward : Bool) : Pattern → Growth
  | .empty | .assertion _ => .one (·.addPlain 1) none
  | .literal text =>
    let bytes := text.flatMap String.utf8EncodeChar
    .one (·.addPlain bytes.length) (some bytes)
  | .one set => .one (growClass backward set) none
  | .group p =>
    let grow := (p.growth backward).grow backward
    .one (if backward then grow else fun c => (grow (c.addPlain 1)).addPlain 1) none
  | .seq p q =>
    let (p, q) := ((p.growth backward).grow backward, (q.growth backward).grow backward)
    .one (if backward then fun c => p (q c) else fun c => q (p c)) none
  | .alt p q =>
    let (p, q) := (p.growth backward, q.growth backward)
    .several (p.branches ++ q.branches) do return (← p.words) ++ (← q.words)
  | .repeated p min max =>
    let matchesEmpty := !p.minLength.any (0 < ·)
    .one (growRepetition ((p.growth backward).grow backward) matchesEmpty min max) none

/-- The bytes of the whole automaton. One that does not hold to its end of the text first passes
over any bytes; forward, the place of the whole match is kept as that of a group. -/
def automatonSize (backward : Bool) (p : Pattern) : Nat :=
  let holds := if backward then p.endsAtEnd else p.beginsAtStart
  let front := Count.empty
  let front :=
    if holds then front.addPlain 1 else ((front.addBranching 2).addPlain 1).addRanges 1
  let whole := if backward then p else .group p
  (((whole.growth backward).grow backward front).addPlain 1).bytes

def isSmall (p : Pattern) : Bool :=
  p.automatonSize false ≤ sizeLimit && p.automatonSize true ≤ sizeLimit

end PackageAlgebra.Pattern
