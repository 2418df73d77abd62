import PackageAlgebra.Unicode.Derived
import PackageAlgebra.Unicode.Script

/-!
# Text boundaries

The properties that part a text into characters as a reader sees them, words and
sentences. Every value of a property is a class; the value for everything else
goes by no name.
-/

namespace PackageAlgebra.Unicode

def carriageReturn : CharClass := .single '\r'

def lineFeed : CharClass := .single '\n'

def zeroWidthJoiner : CharClass := ⟨[(0x200D, 0x200D)]⟩

namespace Grapheme

def prepend : CharClass :=
  prependedConcatenationMark ∪
    .ofTable ["3406 1 66675 2 525 1 1389 1 1 1 248 1 73 6 700 1 443 1"]

def extend : CharClass :=
  graphemeExtend ∪ emojiModifier

def control : CharClass :=
  (charsOf [.cc, .cf, .zl, .zp] ∪ (Category.cn.chars ∩ defaultIgnorable)) \
    (carriageReturn ∪ lineFeed ∪ zeroWidthJoiner ∪ extend ∪ prepend)

def jamoLead : CharClass :=
  .ofTable ["4352 96 38912 29"]

def jamoVowel : CharClass :=
  .ofTable ["4448 72 50696 23 38300 1 3 4"]

def jamoTrail : CharClass :=
  .ofTable ["4520 88 50635 49"]

/-- Syllables with nothing behind their vowel, every twenty-eighth. -/
def openSyllable : CharClass :=
  ⟨(List.range 399).map fun i => (0xAC00 + 28 * i, 0xAC00 + 28 * i)⟩

def closedSyllable : CharClass :=
  ⟨[(0xAC00, 0xD7A3)]⟩ \ openSyllable

/-- Spacing marks that do not hold to the character before them. -/
def looseMark : CharClass :=
  .ofTable ["4139 2 11 1 41 3 2 7 21 1 3 6 2 1 10 3 2500 1 1 2 36886 1 1 1 27810 2"]

def spacingMark : CharClass :=
  (Category.mc.chars \ (graphemeExtend ∪ looseMark)) ∪ ⟨[(0xE33, 0xE33), (0xEB3, 0xEB3)]⟩

end Grapheme

def graphemeBreaks : List (List String × CharClass) :=
  [(["cn", "control"], Grapheme.control), (["cr"], carriageReturn),
    (["ex", "extend"], Grapheme.extend), (["l"], Grapheme.jamoLead), (["lf"], lineFeed),
    (["lv"], Grapheme.openSyllable), (["lvt"], Grapheme.closedSyllable),
    (["pp", "prepend"], Grapheme.prepend), (["ri", "regionalindicator"], regionalIndicator),
    (["sm", "spacingmark"], Grapheme.spacingMark), (["t"], Grapheme.jamoTrail),
    (["v"], Grapheme.jamoVowel), (["zwj"], zeroWidthJoiner)]

namespace Word

def extend : CharClass :=
  (Grapheme.extend ∪ Category.mc.chars) \ zeroWidthJoiner

/-- Formats but for the joiners, which join, and the tags, which extend. -/
def format : CharClass :=
  Category.cf.chars \
    (prependedConcatenationMark ∪ ⟨[(0x200B, 0x200D), (0xE0020, 0xE007F)]⟩)

def numeric : CharClass :=
  (Category.nd.chars ∪ prependedConcatenationMark ∪ ⟨[(0x66B, 0x66B), (0x19DA, 0x19DA)]⟩) \
    ⟨[(0x70F, 0x70F)]⟩

def space : CharClass :=
  Category.zs.chars \ ⟨[(0xA0, 0xA0), (0x2007, 0x2007), (0x202F, 0x202F)]⟩

def newline : CharClass :=
  .ofTable ["11 2 120 1 8098 2"]

/-- Connectors that hold to letters and digits alike. -/
def extendNumLet : CharClass :=
  .ofTable ["95 1 8143 1 15 2 19 1 56798 2 24 3 239 1"]

def hebrewLetter : CharClass :=
  .ofTable ["1488 27 4 4 62762 1 1 10 1 13 1 5 1 1 1 2 1 2 1 10"]

def katakana : CharClass :=
  .ofTable
    ["12337 5 101 2 3 91 1 4 240 16 208 47 1 88 52238 56 45138 4 1 7 1 2 1 1 287 3 50 1 14 4"]

def midNumber : CharClass :=
  .ofTable ["44 1 14 1 834 1 522 1 130 2 94 1 395 1 6219 1 56843 1 3 1 183 1 14 1"]

def letterLike : CharClass :=
  .ofTable ["706 4 12 6 6 2 5 7 1 1 1 17 602 3 1 1 43 1 104 1 283 1 40952 15 9 2 103 2 976 1"]

def unspacedScripts : List String :=
  ["thai", "lao", "khmr", "mymr", "tale", "talu", "lana", "tavt", "ahom", "hira"]

def letter : CharClass :=
  (alphabetic \ (ideographic ∪ katakana ∪ hebrewLetter ∪ extend ∪
    .unionAll (unspacedScripts.filterMap script?))) ∪ letterLike

end Word

def wordBreaks : List (List String × CharClass) :=
  [(["le", "aletter"], Word.letter), (["cr"], carriageReturn),
    (["dq", "doublequote"], .single '"'), (["extend"], Word.extend),
    (["ex", "extendnumlet"], Word.extendNumLet), (["fo", "format"], Word.format),
    (["hl", "hebrewletter"], Word.hebrewLetter), (["ka", "katakana"], Word.katakana),
    (["lf"], lineFeed), (["ml", "midletter"], midLetter), (["mn", "midnum"], Word.midNumber),
    (["mb", "midnumlet"], midNumLet), (["nl", "newline"], Word.newline),
    (["nu", "numeric"], Word.numeric), (["ri", "regionalindicator"], regionalIndicator),
    (["sq", "singlequote"], .single '\''), (["wsegspace"], Word.space),
    (["zwj"], zeroWidthJoiner)]

namespace Sentence

def extend : CharClass :=
  graphemeExtend ∪ Category.mc.chars ∪ zeroWidthJoiner

def format : CharClass :=
  Word.format ∪ ⟨[(0x70F, 0x70F), (0x200B, 0x200B)]⟩

def numeric : CharClass :=
  Word.numeric ∪ ⟨[(0x66C, 0x66C)]⟩

/-- Small letters but for those of Georgian, which has no capitals in running text. -/
def lower : CharClass :=
  lowercase \ (graphemeExtend ∪ ⟨[(0x10D0, 0x10FA), (0x10FD, 0x10FF)]⟩)

def upper : CharClass :=
  (uppercase ∪ Category.lt.chars) \ ⟨[(0x1C90, 0x1CBA), (0x1CBD, 0x1CBF)]⟩

def otherLetter : CharClass :=
  (alphabetic \ (lower ∪ upper ∪ extend)) ∪ ⟨[(0x5F3, 0x5F3)]⟩

def separator : CharClass :=
  .ofTable ["133 1 8098 2"]

def space : CharClass :=
  whiteSpace \ (separator ∪ carriageReturn ∪ lineFeed)

def ambiguousStop : CharClass :=
  .ofTable ["46 1 8181 1 56877 1 187 1"]

def terminal : CharClass :=
  sentenceTerminal \ ambiguousStop

def close : CharClass :=
  (charsOf [.ps, .pe, .pi, .pf] ∪ quotationMark ∪
    .ofTable ["10075 6 1695 2 4 3 2 1 116842 3"]) \
    ⟨[(0xFF02, 0xFF02), (0xFF07, 0xFF07)]⟩

def continuation : CharClass :=
  .ofTable
    ["44 2 12 2 834 1 478 1 174 2 490 1 4105 1 5 1 2058 2 4076 1 52750 2 1 2 28 2 29 2 2 2 2 1",
     "10 1 168 2 12 2 72 1"]

end Sentence

def sentenceBreaks : List (List String × CharClass) :=
  [(["at", "aterm"], Sentence.ambiguousStop), (["cl", "close"], Sentence.close),
    (["cr"], carriageReturn), (["ex", "extend"], Sentence.extend),
    (["fo", "format"], Sentence.format), (["lf"], lineFeed), (["lo", "lower"], Sentence.lower),
    (["nu", "numeric"], Sentence.numeric), (["le", "oletter"], Sentence.otherLetter),
    (["sc", "scontinue"], Sentence.continuation), (["se", "sep"], Sentence.separator),
    (["sp"], Sentence.space), (["st", "sterm"], Sentence.terminal),
    (["up", "upper"], Sentence.upper)]

end PackageAlgebra.Unicode
