import PackageAlgebra.Unicode.CaseFold
import PackageAlgebra.Unicode.Category
import PackageAlgebra.Unicode.Property

/-!
# Derived properties

Properties that are put together from categories and listed properties by the
rules of Unicode 16. Characters that a rule does not get right are added or
taken off one by one. The names of groups and quoted texts go by Unicode 17.
-/

namespace PackageAlgebra.Unicode

def lowercase : CharClass :=
  Category.ll.chars ∪ otherLowercase

def uppercase : CharClass :=
  Category.lu.chars ∪ otherUppercase

def cased : CharClass :=
  lowercase ∪ uppercase ∪ Category.lt.chars

def alphabetic : CharClass :=
  cased ∪ charsOf [.lm, .lo, .nl] ∪ otherAlphabetic

def math : CharClass :=
  Category.sm.chars ∪ otherMath

def word : CharClass :=
  alphabetic ∪ charsOf marks ∪ charsOf [.nd, .pc] ∪ joinControl

def graphemeExtend : CharClass :=
  charsOf [.me, .mn] ∪ otherGraphemeExtend

/-- What can begin a character as a reader sees it. -/
def graphemeBase : CharClass :=
  .minus .all (charsOf [.cc, .cf, .cs, .co, .cn, .zl, .zp] ∪ graphemeExtend)

/-- What shows nothing where it is not supported; annotations and the joiners of hieroglyphs
do show. -/
def defaultIgnorable : CharClass :=
  (otherDefaultIgnorable ∪ Category.cf.chars ∪ variationSelector) \
    (whiteSpace ∪ prependedConcatenationMark ∪ ⟨[(0xFFF9, 0xFFFB), (0x13430, 0x13440)]⟩)

def idStart : CharClass :=
  (charsOf letters ∪ Category.nl.chars ∪ otherIdStart) \ (patternSyntax ∪ patternWhiteSpace)

def idContinue : CharClass :=
  (idStart ∪ charsOf [.mn, .mc, .nd, .pc] ∪ otherIdContinue) \
    (patternSyntax ∪ patternWhiteSpace)

def notClosedUnderForms : CharClass :=
  .ofTable ["890 1 11552 2 52161 6 406 2 116 1 1 1 1 1 1 1 1 1 1 1 1 1 1 1"]

def xidStart : CharClass :=
  idStart \ (notClosedUnderForms ∪ ⟨[(0xE33, 0xE33), (0xEB3, 0xEB3), (0xFF9E, 0xFF9F)]⟩)

def xidContinue : CharClass :=
  idContinue \ notClosedUnderForms

def changesWhenLowercased : CharClass :=
  ((uppercase ∪ Category.lt.chars) ∩ hasVariant) ∪ .single (Char.ofNat 0x130)

/-- Lower-case characters that no simple folding joins to their upper-case form. -/
def uppercaseLonger : CharClass :=
  .ofTable
    ["305 1 23 1 166 1 918 1 6414 5 181 1 1 1 1 1 1 1 91 1 1 1 1 2 10 1 1 1 1 2 10 1 3 2 10 1 1",
     "1 1 2 10 1 1 1 1 2 56072 5 14 5"]

def changesWhenUppercased : CharClass :=
  ((lowercase ∪ Category.lt.chars) ∩ hasVariant) ∪ uppercaseLonger

def changesWhenTitlecased : CharClass :=
  (changesWhenUppercased \ (Category.lt.chars ∪ ⟨[(0x10D0, 0x10FA), (0x10FD, 0x10FF)]⟩)) ∪
    ⟨[(0x1C4, 0x1C4), (0x1C7, 0x1C7), (0x1CA, 0x1CA), (0x1F1, 0x1F1)]⟩

def changesWhenCasemapped : CharClass :=
  changesWhenLowercased ∪ changesWhenUppercased ∪ changesWhenTitlecased

def foldsFurther : CharClass :=
  .ofTable
    ["181 1 41 1 105 1 53 1 453 1 124 1 13 2 3 2 25 2 3 1 401 1 3696 6 2178 9 529 2 228 8 8 8 8",
     "8 10 3 2 1 10 3 2 1 42 3 2 1 35704 80 20288 7 12 5"]

def changesWhenCasefolded : CharClass :=
  (changesWhenLowercased ∪ foldsFurther) \ ⟨[(0x13A0, 0x13F5)]⟩

def caseIgnorable : CharClass :=
  charsOf [.mn, .me, .cf, .lm, .sk] ∪ midLetter ∪ midNumLet ∪ .single '\''

-- ---------------------------------------------------------------------------
-- Unicode 17
-- ---------------------------------------------------------------------------

def recentChars : CharClass :=
  .ofTable
    ["2191 1 972 1 127 1 3570 15 2 12 1493 1 2772 1 31799 2 2 1 1 1 28 1 21457 16 445 2 54 7",
     "2929 26 1387 3 8 9 33 2 3172 8 584 44 4 10 20662 25 2 25 286 5 6145 8 1289 22 97 115 16135",
     "3 445 23 15 17 6095 31 1 22 8 2 4056 1 158 4 341 9 379 4 50 1 3 1 57 1 4 1 28 1 4 1 266 1",
     "47935 6 5986 12 21762 4298"]

def recentAlphabetic : CharClass :=
  .ofTable
    ["2191 1 972 1 127 1 39665 2 2 1 1 1 28 1 24910 26 1387 3 50 2 3172 8 584 44 20676 25 2 25",
     "286 5 6145 8 1289 22 97 115 22733 31 1 22 8 2 53306 6 5986 12 21762 4298"]

def recentNumbers : CharClass :=
  .ofTable ["73184 10 21002 3"]

def recentGraphemeExtend : CharClass :=
  .ofTable ["6863 15 2 12 62478 2 3172 1 1 3 1 1 52092 1 2 1 7 2 5 1"]

def letterChars : CharClass :=
  alphabetic ∪ recentAlphabetic

def numberChars : CharClass :=
  charsOf numbers ∪ recentNumbers

def isAlphabetic (c : Char) : Bool :=
  if c.toNat < 0x80 then c.isAlpha else letterChars.mem c

def isAlphanumeric (c : Char) : Bool :=
  if c.toNat < 0x80 then c.isAlphanum else letterChars.mem c || numberChars.mem c

/-- Characters that take up no room of their own: they go on the character before them. The
half-width voicing marks do take up room. -/
def extendingChars : CharClass :=
  (graphemeExtend ∪ recentGraphemeExtend) \ ⟨[(0xFF9E, 0xFF9F)]⟩

def fillers : CharClass :=
  ⟨[(0x115F, 0x1160), (0x3164, 0x3164), (0xFFA0, 0xFFA0)]⟩

/-- Characters that show as themselves: of the separators only the blank does, and nothing
unassigned. -/
def visibleChars : CharClass :=
  ((CharClass.all \ charsOf (separators ++ others)) ∪ recentChars) \
    (extendingChars ∪ fillers) ∪ .single ' '

end PackageAlgebra.Unicode
