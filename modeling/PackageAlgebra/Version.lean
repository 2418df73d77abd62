import PackageAlgebra.Text

/-!
# Package versions

Numbers stay texts of digits: `1.0` and `1.00` are two spellings, and no number
is too long. The parts carry what a reader checks of them, so every version is
one that can be read. The first numbers compare as integers, later ones too,
unless one of the two begins with zero: then both compare as texts without their
trailing zeros, like the digits of a fraction.
-/

namespace PackageAlgebra

-- ---------------------------------------------------------------------------
-- The parts of a version
-- ---------------------------------------------------------------------------

def isNumeral (cs : List Char) : Bool :=
  !cs.isEmpty && cs.all Text.isDecimal

structure Numeral where
  chars : List Char
  isNumeral_chars : isNumeral chars = true
deriving DecidableEq, Repr

def isLetter (c : Char) : Bool :=
  'a' ≤ c && c ≤ 'z'

structure Letter where
  char : Char
  isLetter_char : isLetter char = true
deriving DecidableEq, Repr

inductive SuffixKind
  | alpha
  | beta
  | pre
  | rc
  | p
deriving DecidableEq, Repr

namespace SuffixKind

def name : SuffixKind → List Char
  | .alpha => "alpha".toList
  | .beta => "beta".toList
  | .pre => "pre".toList
  | .rc => "rc".toList
  | .p => "p".toList

def rank : SuffixKind → Nat
  | .alpha => 0
  | .beta => 1
  | .pre => 2
  | .rc => 3
  | .p => 4

/-- All kinds; `pre` stands before `p`, whose name begins its own. -/
def all : List SuffixKind :=
  [.alpha, .beta, .pre, .rc, .p]

end SuffixKind

structure Suffix where
  kind : SuffixKind
  number : Option Numeral
deriving DecidableEq, Repr

namespace Suffix

def digits (s : Suffix) : List Char :=
  s.number.elim [] Numeral.chars

def chars (s : Suffix) : List Char :=
  '_' :: s.kind.name ++ s.digits

end Suffix

structure Version where
  major : Numeral
  minors : List Numeral
  letter : Option Letter
  suffixes : List Suffix
  revision : UInt64
deriving DecidableEq, Repr

namespace Version

def baseChars (v : Version) : List Char :=
  v.major.chars ++ v.minors.flatMap ('.' :: ·.chars) ++ v.letter.toList.map Letter.char ++
    v.suffixes.flatMap Suffix.chars

def base (v : Version) : String :=
  String.ofList v.baseChars

def revisionChars (v : Version) : List Char :=
  if v.revision = 0 then [] else '-' :: 'r' :: Text.digits v.revision.toNat

def chars (v : Version) : List Char :=
  v.baseChars ++ v.revisionChars

instance : ToString Version where
  toString v := String.ofList v.chars

/-- Whether the printed version begins with `start` at the end of a number: `1.2*`
does not reach `1.20`. -/
def matchesGlob (v : Version) (start : String) : Bool :=
  match start.toList.isPrefixOf? v.chars with
  | none => false
  | some rest => !(start.toList.getLast?.any Text.isDigit && rest.head?.any Text.isDigit)

end Version

end PackageAlgebra

namespace PackageAlgebra.Version

-- ---------------------------------------------------------------------------
-- The order of versions
-- ---------------------------------------------------------------------------

def byteLength (cs : List Char) : Nat :=
  cs.foldl (fun n c => n + c.utf8Size) 0

def dropZeros (cs : List Char) : List Char :=
  cs.dropWhile (· == '0')

def dropTrailingZeros (cs : List Char) : List Char :=
  (dropZeros cs.reverse).reverse

/-- Compares two runs of digits as integers of any length; the empty run is zero. -/
def compareIntegers (a b : List Char) : Ordering :=
  (compare (byteLength (dropZeros a)) (byteLength (dropZeros b))).then
    (compare (dropZeros a) (dropZeros b))

def compareMinor (a b : Numeral) : Ordering :=
  if a.chars.head? = some '0' ∨ b.chars.head? = some '0' then
    compare (dropTrailingZeros a.chars) (dropTrailingZeros b.chars)
  else compareIntegers a.chars b.chars

/-- Of two chains that agree as far as the shorter one goes, the longer one is newer. -/
def compareMinors (as bs : List Numeral) : Ordering :=
  List.compareLex compareMinor as bs

def compareLetters (a b : Option Letter) : Ordering :=
  compare (a.map Letter.char) (b.map Letter.char)

def compareSuffix (s t : Suffix) : Ordering :=
  (compare s.kind.rank t.kind.rank).then (compareIntegers s.digits t.digits)

def compareSuffixes : List Suffix → List Suffix → Ordering
  | [], [] => .eq
  -- only `_p` comes after the version that it is added to
  | s :: _, [] => if s.kind = .p then .gt else .lt
  | [], t :: _ => if t.kind = .p then .lt else .gt
  | s :: ss, t :: ts => (compareSuffix s t).then (compareSuffixes ss ts)

def compareBase (v w : Version) : Ordering :=
  (compareIntegers v.major.chars w.major.chars).then <|
    (compareMinors v.minors w.minors).then <|
      (compareLetters v.letter w.letter).then (compareSuffixes v.suffixes w.suffixes)

def compareVersions (v w : Version) : Ordering :=
  (compareBase v w).then (compare v.revision w.revision)

instance : Ord Version := ⟨compareVersions⟩

def same (v w : Version) : Bool :=
  compare v w == .eq

def sameBase (v w : Version) : Bool :=
  compareBase v w == .eq

end PackageAlgebra.Version

namespace PackageAlgebra

-- ---------------------------------------------------------------------------
-- Reading
-- ---------------------------------------------------------------------------

inductive VersionError
  | malformed (text : String)
  | revisionOutOfRange (text : String)
deriving DecidableEq, Repr

def VersionError.reason : VersionError → String
  | .malformed text => text
  | .revisionOutOfRange text => s!"{text}: revision out of range"

def VersionError.message (e : VersionError) : String :=
  s!"Invalid version: {e.reason}"

def Numeral.read? (cs : List Char) : Option Numeral :=
  if h : isNumeral cs = true then some ⟨cs, h⟩ else none

def Letter.ofChar? (c : Char) : Option Letter :=
  if h : isLetter c = true then some ⟨c, h⟩ else none

def Suffix.readNumber? (cs : List Char) : Option (Option Numeral) :=
  if cs.isEmpty then some none else (Numeral.read? cs).map some

def Suffix.read? (cs : List Char) : Option Suffix :=
  SuffixKind.all.findSome? fun kind =>
    (kind.name.isPrefixOf? cs).bind fun number => (readNumber? number).map (⟨kind, ·⟩)

def Suffix.readAll? (cs : List Char) : Option (List Suffix) :=
  match cs.splitOn '_' with
  | [] :: suffixes => suffixes.mapM Suffix.read?
  | _ => none

namespace Version

structure Parts where
  numbers : List Char
  letter : Option Letter
  suffixes : List Char
  revision : List Char

def inNumbers (c : Char) : Bool :=
  Text.isDecimal c || c == '.'

def Parts.ofChars (cs : List Char) : Parts :=
  let numbers := cs.takeWhile inNumbers
  let behind := cs.dropWhile inNumbers
  let letter := behind.head?.bind Letter.ofChar?
  let tail := if letter.isSome then behind.tail else behind
  { numbers, letter, suffixes := tail.takeWhile (· != '-'), revision := tail.dropWhile (· != '-') }

/-- Reads the revision with its mark; a text without one has revision zero. -/
def readRevision (text : String) : List Char → Except VersionError UInt64
  | [] => .ok 0
  | '-' :: 'r' :: cs =>
    if isNumeral cs then
      match Text.number? cs with
      | some n =>
        if n < UInt64.size then .ok (UInt64.ofNat n) else .error (.revisionOutOfRange text)
      -- digits of other scripts make a revision but write no number
      | none => .error (.revisionOutOfRange text)
    else .error (.malformed text)
  | _ => .error (.malformed text)

def parse (text : String) : Except VersionError Version :=
  let parts := Parts.ofChars text.toList
  match (parts.numbers.splitOn '.').mapM Numeral.read? with
  | some (major :: minors) =>
    match (if parts.suffixes.isEmpty then some [] else Suffix.readAll? parts.suffixes) with
    | some suffixes =>
      (readRevision text parts.revision).map fun revision =>
        { major, minors, letter := parts.letter, suffixes, revision }
    | none => .error (.malformed text)
  | _ => .error (.malformed text)

end Version

end PackageAlgebra
