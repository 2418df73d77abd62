import PackageAlgebra.Unicode.CharClass
import PackageAlgebra.Unicode.Derived

/-!
# Patterns

An assertion matches the empty text at places that have certain characters on
either side. A text has a place before each of its characters and one at its
end. A pattern takes the places where a match may begin to the places where it
may end, in ascending order.
-/

namespace PackageAlgebra.CharClass

def asciiWord : CharClass :=
  ⟨[(0x30, 0x39), (0x41, 0x5A), (0x5F, 0x5F), (0x61, 0x7A)]⟩

def asciiBlank : CharClass :=
  ⟨[(0x09, 0x0D), (0x20, 0x20)]⟩

def asciiDigit : CharClass :=
  ⟨[(0x30, 0x39)]⟩

def named? (name : String) : Option CharClass :=
  [("alnum", ⟨[(0x30, 0x39), (0x41, 0x5A), (0x61, 0x7A)]⟩),
    ("alpha", ⟨[(0x41, 0x5A), (0x61, 0x7A)]⟩),
    ("ascii", ⟨[(0x00, 0x7F)]⟩),
    ("blank", ⟨[(0x09, 0x09), (0x20, 0x20)]⟩),
    ("cntrl", ⟨[(0x00, 0x1F), (0x7F, 0x7F)]⟩),
    ("digit", asciiDigit),
    ("graph", ⟨[(0x21, 0x7E)]⟩),
    ("lower", ⟨[(0x61, 0x7A)]⟩),
    ("print", ⟨[(0x20, 0x7E)]⟩),
    ("punct", ⟨[(0x21, 0x2F), (0x3A, 0x40), (0x5B, 0x60), (0x7B, 0x7E)]⟩),
    ("space", asciiBlank),
    ("upper", ⟨[(0x41, 0x5A)]⟩),
    ("word", asciiWord),
    ("xdigit", ⟨[(0x30, 0x39), (0x41, 0x46), (0x61, 0x66)]⟩)].lookup name

end PackageAlgebra.CharClass

namespace PackageAlgebra

-- ---------------------------------------------------------------------------
-- Patterns
-- ---------------------------------------------------------------------------

/-- What has to hold between the characters before and behind a place; the word assertions
come for ASCII words and for words of any script. -/
inductive Assertion
  | textStart
  | textEnd
  | lineStart
  | lineEnd
  | crlfLineStart
  | crlfLineEnd
  | wordBoundary (ascii : Bool)
  | noWordBoundary (ascii : Bool)
  | wordStart (ascii : Bool)
  | wordEnd (ascii : Bool)
  | wordStartHalf (ascii : Bool)
  | wordEndHalf (ascii : Bool)
deriving DecidableEq, Repr

namespace Assertion

def inWord (ascii : Bool) (c : Option Char) : Bool :=
  c.any (if ascii then CharClass.asciiWord else Unicode.word).mem

def holds (before behind : Option Char) : Assertion → Bool
  | .textStart => before.isNone
  | .textEnd => behind.isNone
  | .lineStart => before.all (· == '\n')
  | .lineEnd => behind.all (· == '\n')
  | .crlfLineStart =>
    before.isNone || before == some '\n' || (before == some '\r' && behind != some '\n')
  | .crlfLineEnd =>
    behind.isNone || behind == some '\r' || (behind == some '\n' && before != some '\r')
  | .wordBoundary ascii => inWord ascii before != inWord ascii behind
  | .noWordBoundary ascii => inWord ascii before == inWord ascii behind
  | .wordStart ascii => !inWord ascii before && inWord ascii behind
  | .wordEnd ascii => inWord ascii before && !inWord ascii behind
  | .wordStartHalf ascii => !inWord ascii before
  | .wordEndHalf ascii => !inWord ascii behind

end Assertion

inductive Pattern
  | empty
  | literal (text : List Char)
  | one (set : CharClass)
  | assertion (a : Assertion)
  | group (p : Pattern)
  | seq (p q : Pattern)
  | alt (p q : Pattern)
  | repeated (p : Pattern) (min : Nat) (max : Option Nat)
deriving DecidableEq, Repr

namespace Pattern

def never : Pattern := .one .empty

def utf8Length (text : List Char) : Nat :=
  text.foldl (fun n c => n + c.utf8Size) 0

/-- The least number of bytes that a match has; a part that never matches leaves none. -/
def minLength : Pattern → Option Nat
  | .empty | .assertion _ => some 0
  | .literal text => some (utf8Length text)
  | .one set => set.runs.head?.map fun run => (Char.ofNat run.1).utf8Size
  | .group p => p.minLength
  | .seq p q => do return (← p.minLength) + (← q.minLength)
  | .alt p q => do return Nat.min (← p.minLength) (← q.minLength)
  | .repeated p min _ => p.minLength.map (min * ·)

def maxLength : Pattern → Option Nat
  | .empty | .assertion _ => some 0
  | .literal text => some (utf8Length text)
  | .one set => set.runs.getLast?.map fun run => (Char.ofNat run.2).utf8Size
  | .group p => p.maxLength
  | .seq p q => do return (← p.maxLength) + (← q.maxLength)
  | .alt p q => do return Nat.max (← p.maxLength) (← q.maxLength)
  | .repeated p _ max => do return (← max) * (← p.maxLength)

def beginsAtStart : Pattern → Bool
  | .assertion a => a = .textStart
  | .group p => p.beginsAtStart
  | .seq p q => p.beginsAtStart || (p.maxLength = some 0 && q.beginsAtStart)
  | .alt p q => p.beginsAtStart && q.beginsAtStart
  | .repeated p min _ => 0 < min && p.beginsAtStart
  | .empty | .literal _ | .one _ => false

def endsAtEnd : Pattern → Bool
  | .assertion a => a = .textEnd
  | .group p => p.endsAtEnd
  | .seq p q => q.endsAtEnd || (q.maxLength = some 0 && p.endsAtEnd)
  | .alt p q => p.endsAtEnd && q.endsAtEnd
  | .repeated p min _ => 0 < min && p.endsAtEnd
  | .empty | .literal _ | .one _ => false

end Pattern

end PackageAlgebra

namespace PackageAlgebra.Pattern

-- ---------------------------------------------------------------------------
-- Matching
-- ---------------------------------------------------------------------------

/-- Puts place `i` among the places of the list, and `merged` of what is then left of it
behind. -/
def mergeAt (i : Nat) (merged : List Nat → List Nat) : List Nat → List Nat
  | [] => i :: merged []
  | j :: js =>
    if i < j then i :: merged (j :: js)
    else if j < i then j :: mergeAt i merged js
    else i :: merged js

def mergePlaces : List Nat → List Nat → List Nat
  | [], js => js
  | i :: is, js => mergeAt i (mergePlaces is) js

def advance (text : Array Char) (test : Char → Bool) (places : List Nat) : List Nat :=
  (places.filter fun i => text[i]?.any test).map (· + 1)

/-- Whether the assertion holds at a place. -/
def holdsAt (text : Array Char) (a : Assertion) (i : Nat) : Bool :=
  a.holds (if i = 0 then none else text[i - 1]?) text[i]?

def iterate (step : List Nat → List Nat) : Nat → List Nat → List Nat
  | 0, places => places
  | count + 1, places =>
    let next := step places
    if next = places then places else iterate step count next

def mark (seen : Array Bool) (places : List Nat) : Array Bool :=
  places.foldl (fun seen i => seen.setIfInBounds i true) seen

/-- Marks what at most `count` steps lead to. Only from the places found last can a step lead
to new ones. -/
def spread (step : List Nat → List Nat) : Nat → List Nat → Array Bool → Array Bool
  | 0, _, seen => seen
  | count + 1, places, seen =>
    let found := (step places).filter fun i => !seen.getD i false
    if found.isEmpty then seen else spread step count found (mark seen found)

/-- The places that the pattern leads to from the given ones. A text of `n` characters has
`n + 1` places, so more copies than these lead to no other places. -/
def reach (text : Array Char) : Pattern → List Nat → List Nat
  | .empty, places => places
  | .literal chars, places => chars.foldl (fun places c => advance text (· == c) places) places
  | .one set, places => advance text set.mem places
  | .assertion a, places => places.filter (holdsAt text a)
  | .group p, places => p.reach text places
  | .seq p q, places => q.reach text (p.reach text places)
  | .alt p q, places => mergePlaces (p.reach text places) (q.reach text places)
  | .repeated p min max, places =>
    let bound := text.size + 1
    let further := max.elim bound fun max => Nat.min (max - min) bound
    let needed := iterate (p.reach text) (Nat.min min bound) places
    let seen := spread (p.reach text) further needed (mark (Array.replicate bound false) needed)
    (List.range bound).filter fun i => seen.getD i false

/-- Whether the pattern matches some part of the text. -/
def search (p : Pattern) (text : List Char) : Bool :=
  !(p.reach text.toArray (List.range (text.length + 1))).isEmpty

end PackageAlgebra.Pattern
