import PackageAlgebra.Pattern.Bracket
import PackageAlgebra.Pattern.Size
import PackageAlgebra.Text
import PackageAlgebra.Unicode.Derived

/-!
# Reading patterns

Each open group keeps what stands before it and the flags to go back to.
Patterns that nest too deep or that would make too big an automaton are refused.
-/

namespace PackageAlgebra.Pattern

/-- A part of a sequence with the depth of its tree; a flag directive stands for nothing. -/
structure Item where
  pattern : Option Pattern
  height : Nat

/-- What a group, or the whole pattern, holds so far, the last first. -/
structure Level where
  items : List Item
  branches : List Item

structure OpenGroup where
  outer : Level
  flags : Flags
  isKept : Bool

structure Reader where
  flags : Flags
  level : Level
  groups : List OpenGroup
  names : List (List Char)

def Level.empty : Level := ⟨[], []⟩

def Reader.initial : Reader := ⟨.initial, .empty, [], []⟩

def maxHeight (items : List Item) : Nat :=
  (items.map (·.height)).foldl Nat.max 0

def heightOver (items : List Item) : Nat :=
  if items.length < 2 then maxHeight items else maxHeight items + 1

namespace Level

def push (l : Level) (pattern : Option Pattern) (height : Nat) : Level :=
  { l with items := ⟨pattern, height⟩ :: l.items }

def sequence (l : Level) : Item :=
  ⟨some (Pattern.sequence (l.items.reverse.filterMap (·.pattern))), heightOver l.items⟩

def branch (l : Level) : Level :=
  ⟨[], l.sequence :: l.branches⟩

def close (l : Level) : Item :=
  let all := l.sequence :: l.branches
  let patterns := all.reverse.filterMap (·.pattern)
  ⟨some (alternation patterns), heightOver all⟩

def repeatLast (l : Level) (min : Nat) (max : Option Nat) : Option Level :=
  match l.items with
  | ⟨some p, height⟩ :: items =>
    some { l with items := ⟨some (p.repetition min max), height + 1⟩ :: items }
  | _ => none

end Level

inductive FlagLetter
  | ignoreCase
  | multiLine
  | dotAll
  | swapGreed
  | unicode
  | crlf
  | extended
  | negation
deriving DecidableEq

def FlagLetter.ofChar? : Char → Option FlagLetter
  | 'i' => some .ignoreCase
  | 'm' => some .multiLine
  | 's' => some .dotAll
  | 'U' => some .swapGreed
  | 'u' => some .unicode
  | 'R' => some .crlf
  | 'x' => some .extended
  | '-' => some .negation
  | _ => none

def Flags.set (flags : Flags) (on : Bool) : FlagLetter → Flags
  | .ignoreCase => { flags with ignoreCase := on }
  | .multiLine => { flags with multiLine := on }
  | .dotAll => { flags with dotAll := on }
  | .unicode => { flags with ascii := !on }
  | .crlf => { flags with crlf := on }
  | .extended => { flags with extended := on }
  | .swapGreed | .negation => flags

def Flags.apply (flags : Flags) (on : Bool) : List FlagLetter → Flags
  | [] => flags
  | .negation :: letters => flags.apply false letters
  | letter :: letters => (flags.set on letter).apply on letters

/-- Reads flag letters up to a colon or a closing bracket, which stays. No letter may stand
twice, and the hyphen not last. -/
def readFlagLetters (seen : List FlagLetter) : List Char → Option (List FlagLetter × List Char)
  | [] => none
  | c :: cs =>
    if c = ':' || c = ')' then
      if seen.head? = some .negation then none else some (seen.reverse, c :: cs)
    else
      match FlagLetter.ofChar? c with
      | some letter => if seen.contains letter then none else readFlagLetters (letter :: seen) cs
      | none => none

def isGroupNameChar (first : Bool) (c : Char) : Bool :=
  c == '_' ||
    if first then Unicode.isAlphabetic c
    else c == '.' || c == '[' || c == ']' || Unicode.isAlphanumeric c

def readGroupName (cs : List Char) : Option (List Char × List Char) :=
  match Text.cutFirst? ['>'] cs with
  | some (c :: name, rest) =>
    if isGroupNameChar true c && name.all (isGroupNameChar false) then some (c :: name, rest)
    else none
  | _ => none

namespace Reader

def pushPart (r : Reader) (pattern : Pattern) (height : Nat) : Reader :=
  { r with level := r.level.push (some pattern) height }

def openGroup (r : Reader) (flags : Flags) (isKept : Bool) : Reader :=
  { r with flags, level := .empty, groups := ⟨r.level, r.flags, isKept⟩ :: r.groups }

def closeGroup (r : Reader) : Option Reader :=
  match r.groups with
  | [] => none
  | opened :: groups =>
    let inner := r.level.close
    let pattern := if opened.isKept then inner.pattern.map group else inner.pattern
    some { r with
      flags := opened.flags, level := opened.outer.push pattern (inner.height + 1), groups }

def openNamed (r : Reader) (cs : List Char) : Option (Reader × List Char) := do
  let (name, rest) ← readGroupName cs
  if r.names.contains name then none
  else return ({ r.openGroup r.flags true with names := name :: r.names }, rest)

def readGroup (r : Reader) (cs : List Char) : Option (Reader × List Char) :=
  match r.flags.next cs with
  -- assertions about what lies ahead or behind
  | '?' :: '=' :: _ | '?' :: '!' :: _ | '?' :: '<' :: '=' :: _ | '?' :: '<' :: '!' :: _ => none
  | '?' :: 'P' :: '<' :: cs => r.openNamed cs
  | '?' :: '<' :: cs => r.openNamed cs
  | '?' :: cs => do
    let (letters, rest) ← readFlagLetters [] cs
    let flags := r.flags.apply true letters
    match rest with
    | ')' :: rest =>
      if letters.isEmpty then none
      else return ({ r with flags, level := r.level.push none 0 }, rest)
    | _ :: rest => return (r.openGroup flags false, rest)
    | [] => none
  | cs => some (r.openGroup r.flags true, cs)

end Reader

def takeDigits (flags : Flags) : Nat → List Char → List Char × List Char
  | fuel + 1, c :: cs =>
    if Text.isDigit c then
      let (digits, rest) := takeDigits flags fuel (flags.next cs)
      (c :: digits, rest)
    else ([], c :: cs)
  | _, cs => ([], cs)

/-- Reads a decimal number below 2³² with blanks around it; `none` inside stands for no
digits. -/
def readCount (flags : Flags) (cs : List Char) : Option (Option Nat × List Char) :=
  let cs := cs.dropWhile Text.isBlank
  let (digits, rest) := takeDigits flags cs.length cs
  let rest := flags.next (rest.dropWhile Text.isBlank)
  if digits.isEmpty then some (none, rest)
  else if Text.numberOf digits < UInt32.size then some (some (Text.numberOf digits), rest)
  else none

def readCounts (flags : Flags) (cs : List Char) : Option ((Nat × Option Nat) × List Char) := do
  let (min, rest) ← readCount flags (flags.next cs)
  match rest with
  | ',' :: rest =>
    match flags.next rest with
    | '\x7d' :: rest => return ((← min, none), rest)
    | rest =>
      let (max, rest) ← readCount flags rest
      match rest with
      | '\x7d' :: rest =>
        let min ← min
        let max ← max
        if min ≤ max then some ((min, some max), rest) else none
      | _ => none
  | '\x7d' :: rest => return ((← min, min), rest)
  | _ => none

def skipLazy : List Char → List Char
  | '?' :: cs => cs
  | cs => cs

namespace Reader

def readRepetition (r : Reader) (min : Nat) (max : Option Nat) (cs : List Char) :
    Option (Reader × List Char) :=
  (r.level.repeatLast min max).map fun level => ({ r with level }, skipLazy cs)

/-- Reads one part of the pattern. -/
def step (r : Reader) : List Char → Option (Reader × List Char)
  | [] => none
  | '(' :: cs => r.readGroup cs
  | ')' :: cs => r.closeGroup.map (·, cs)
  | '|' :: cs => some ({ r with level := r.level.branch }, cs)
  | '[' :: cs => do
    let ((set, height), rest) ← readBracket r.flags (2 * cs.length + 2) cs
    return (r.pushPart (ofClass set) height, rest)
  | '?' :: cs => r.readRepetition 0 (some 1) cs
  | '*' :: cs => r.readRepetition 0 none cs
  | '+' :: cs => r.readRepetition 1 none cs
  | '\x7b' :: cs => do
    let ((min, max), rest) ← readCounts r.flags cs
    r.readRepetition min max (r.flags.next rest)
  | cs => do
    let (primitive, rest) ← readPrimitive r.flags cs
    return (r.pushPart (← primitive.pattern? r.flags) 0, rest)

/-- Reads the whole text, part by part; `fuel` is more than the length of the text. -/
def run : Nat → Reader → List Char → Option Reader
  | 0, _, _ => none
  | fuel + 1, r, cs =>
    match r.flags.next cs with
    | [] => some r
    | cs =>
      match r.step cs with
      | some (r, rest) => run fuel r rest
      | none => none

end Reader

def maxTreeHeight : Nat := 250

def parse? (cs : List Char) : Option Pattern := do
  let r ← Reader.run (cs.length + 1) .initial cs
  if !r.groups.isEmpty then none
  else
    let item := r.level.close
    let p ← item.pattern
    if item.height ≤ maxTreeHeight && p.isSmall then some p else none

def escape (cs : List Char) : List Char :=
  cs.flatMap fun c => if isMeta c then ['\\', c] else [c]

/-- The text of the pattern between the assertions for both ends of a text. -/
def anchored (cs : List Char) : List Char :=
  "^(?:".toList ++ cs ++ ")$".toList

end PackageAlgebra.Pattern
