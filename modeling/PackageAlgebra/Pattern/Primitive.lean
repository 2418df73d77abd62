import PackageAlgebra.Pattern.Simplify
import PackageAlgebra.Text
import PackageAlgebra.Unicode.Age
import PackageAlgebra.Unicode.Boundary
import PackageAlgebra.Unicode.ScriptExtension

/-!
# Parts of a pattern text

Characters, escapes and shorthands for classes and assertions. What a part
stands for depends on the flags in force. The names of properties are compared
without regard to case, blanks, hyphens and underscores, and without an `is` in
front.
-/

namespace PackageAlgebra.CharClass

-- ---------------------------------------------------------------------------
-- Classes by property
-- ---------------------------------------------------------------------------

open Unicode

def looseName (name : String) : String :=
  let keep := fun cs : List Char =>
    (cs.filter fun c => c.toNat < 0x80 && !" _-".toList.contains c).map Char.toLower
  match name.toList with
  | i :: s :: rest =>
    if i.toLower == 'i' && s.toLower == 's' then
      match keep rest with
      | ['c'] => "isc"
      | cs => String.ofList cs
    else String.ofList (keep (i :: s :: rest))
  | cs => String.ofList (keep cs)

def binaryProperties : List (List String × CharClass) :=
  [(["alpha", "alphabetic"], alphabetic), (["ahex", "asciihexdigit"], asciiHexDigit),
    (["bidic", "bidicontrol"], bidiControl), (["bidim", "bidimirrored"], bidiMirrored),
    (["ci", "caseignorable"], caseIgnorable), (["cased"], cased),
    (["cwcf", "changeswhencasefolded"], changesWhenCasefolded),
    (["cwcm", "changeswhencasemapped"], changesWhenCasemapped),
    (["cwl", "changeswhenlowercased"], changesWhenLowercased),
    (["cwt", "changeswhentitlecased"], changesWhenTitlecased),
    (["cwu", "changeswhenuppercased"], changesWhenUppercased), (["dash"], dash),
    (["di", "defaultignorablecodepoint"], defaultIgnorable), (["dep", "deprecated"], deprecated),
    (["dia", "diacritic"], diacritic), (["emoji"], emoji),
    (["ecomp", "emojicomponent"], emojiComponent), (["emod", "emojimodifier"], emojiModifier),
    (["ebase", "emojimodifierbase"], emojiModifierBase),
    (["epres", "emojipresentation"], emojiPresentation),
    (["extpict", "extendedpictographic"], extendedPictographic), (["ext", "extender"], extender),
    (["grbase", "graphemebase"], graphemeBase), (["grext", "graphemeextend"], graphemeExtend),
    (["grlink", "graphemelink"], graphemeLink), (["hex", "hexdigit"], hexDigit),
    (["hyphen"], hyphen), (["idcompatmathcontinue"], idCompatMathContinue),
    (["idcompatmathstart"], idCompatMathStart), (["idc", "idcontinue"], idContinue),
    (["ids", "idstart"], idStart), (["ideo", "ideographic"], ideographic),
    (["idsb", "idsbinaryoperator"], idsBinaryOperator),
    (["idst", "idstrinaryoperator"], idsTrinaryOperator),
    (["idsu", "idsunaryoperator"], idsUnaryOperator), (["joinc", "joincontrol"], joinControl),
    (["loe", "logicalorderexception"], logicalOrderException),
    (["lower", "lowercase"], lowercase), (["math"], math),
    (["mcm", "modifiercombiningmark"], modifierCombiningMark),
    (["nchar", "noncharactercodepoint"], noncharacter),
    (["oalpha", "otheralphabetic"], otherAlphabetic),
    (["odi", "otherdefaultignorablecodepoint"], otherDefaultIgnorable),
    (["ogrext", "othergraphemeextend"], otherGraphemeExtend),
    (["oidc", "otheridcontinue"], otherIdContinue), (["oids", "otheridstart"], otherIdStart),
    (["olower", "otherlowercase"], otherLowercase), (["omath", "othermath"], otherMath),
    (["oupper", "otheruppercase"], otherUppercase), (["patsyn", "patternsyntax"], patternSyntax),
    (["patws", "patternwhitespace"], patternWhiteSpace),
    (["pcm", "prependedconcatenationmark"], prependedConcatenationMark),
    (["qmark", "quotationmark"], quotationMark), (["radical"], radical),
    (["ri", "regionalindicator"], regionalIndicator),
    (["sterm", "sentenceterminal"], sentenceTerminal), (["sd", "softdotted"], softDotted),
    (["term", "terminalpunctuation"], terminalPunctuation),
    (["uideo", "unifiedideograph"], unifiedIdeograph), (["upper", "uppercase"], uppercase),
    (["vs", "variationselector"], variationSelector),
    (["space", "wspace", "whitespace"], whiteSpace), (["xidc", "xidcontinue"], xidContinue),
    (["xids", "xidstart"], xidStart)]

def lookup? {α : Type} (name : String) (table : List (List String × α)) : Option α :=
  (table.find? fun entry => entry.1.contains name).map (·.2)

def category? (name : String) : Option CharClass :=
  match name with
  | "any" => some all
  | "assigned" => some (charsOf Category.assigned)
  | "ascii" => some ⟨[(0, 0x7F)]⟩
  | name => (lookup? name categoryNames).map charsOf

def byName? (name : String) : Option CharClass :=
  let loose := looseName name
  ((lookup? loose binaryProperties).or (category? loose)).or (script? loose)

def byValue? (property value : String) : Option CharClass :=
  let loose := looseName value
  match looseName property with
  | "gc" | "generalcategory" => category? loose
  | "sc" | "script" => script? loose
  | "scx" | "scriptextensions" => scriptExtension? loose
  | "age" => age? loose
  | "gcb" | "graphemeclusterbreak" => lookup? loose graphemeBreaks
  | "wb" | "wordbreak" => lookup? loose wordBreaks
  | "sb" | "sentencebreak" => lookup? loose sentenceBreaks
  | _ => none

end PackageAlgebra.CharClass

namespace PackageAlgebra.Pattern

-- ---------------------------------------------------------------------------
-- Characters, escapes and assertions
-- ---------------------------------------------------------------------------

structure Flags where
  ignoreCase : Bool
  multiLine : Bool
  dotAll : Bool
  crlf : Bool
  ascii : Bool
  /-- Blanks and comments in the pattern are left out. -/
  extended : Bool
deriving DecidableEq, Repr

def Flags.initial : Flags :=
  ⟨false, false, false, false, false, false⟩

def skipBlanks (inComment : Bool) : List Char → List Char
  | [] => []
  | c :: cs =>
    if inComment then skipBlanks (c != '\n') cs
    else if Text.isBlank c then skipBlanks false cs
    else if c = '#' then skipBlanks true cs
    else c :: cs

def Flags.next (flags : Flags) (cs : List Char) : List Char :=
  if flags.extended then skipBlanks false cs else cs

inductive Shorthand
  | decimal
  | blank
  | word
deriving DecidableEq, Repr

inductive AssertionKind
  | textStart
  | textEnd
  | lineStart
  | lineEnd
  | wordBoundary
  | noWordBoundary
  | wordStart
  | wordEnd
  | wordStartHalf
  | wordEndHalf
deriving DecidableEq, Repr

/-- A part as it is written; `isByte` marks a character given by two hexadecimal digits. -/
inductive Primitive
  | literal (c : Char) (isByte : Bool)
  | dot
  | assertion (kind : AssertionKind)
  | shorthand (kind : Shorthand) (negated : Bool)
  | property (set : CharClass) (negated : Bool)
deriving DecidableEq, Repr

def isMeta (c : Char) : Bool :=
  "\\.+*?()|[]\x7b\x7d^$#&-~".toList.contains c

def isPlainEscape (c : Char) : Bool :=
  isMeta c || (c.toNat < 0x80 && !c.isAlphanum && c != '<' && c != '>')

def isHexDigit (c : Char) : Bool :=
  c.isDigit || ('a' ≤ c && c ≤ 'f') || ('A' ≤ c && c ≤ 'F')

def hexDigitValue (c : Char) : Nat :=
  if c.isDigit then c.toNat - '0'.toNat else c.toLower.toNat - 'a'.toNat + 10

def hexValue (cs : List Char) : Nat :=
  cs.foldl (fun n c => 16 * n + hexDigitValue c) 0

def charOfValue? (n : Nat) : Option Char :=
  if n.isValidChar then some (Char.ofNat n) else none

def takeHex (flags : Flags) : Nat → List Char → Option (List Char × List Char)
  | 0, cs => some ([], cs)
  | count + 1, c :: cs =>
    if isHexDigit c then
      (takeHex flags count (flags.next cs)).map fun (digits, rest) => (c :: digits, rest)
    else none
  | _, [] => none

/-- Takes hexadecimal digits up to a closing brace; `fuel` bounds the text. -/
def takeBracedHex (flags : Flags) : Nat → List Char → Option (List Char × List Char)
  | 0, _ => none
  | _, [] => none
  | fuel + 1, c :: cs =>
    if c = '\x7d' then some ([], flags.next cs)
    else if isHexDigit c then
      (takeBracedHex flags fuel (flags.next cs)).map fun (digits, rest) => (c :: digits, rest)
    else none

def readHex (flags : Flags) (count : Nat) (cs : List Char) : Option (Primitive × List Char) :=
  match flags.next cs with
  | '\x7b' :: cs => do
    let (digits, rest) ← takeBracedHex flags cs.length (flags.next cs)
    if digits.isEmpty then none
    else return (.literal (← charOfValue? (hexValue digits)) false, rest)
  | cs => do
    let (digits, rest) ← takeHex flags count cs
    return (.literal (← charOfValue? (hexValue digits)) (count == 2), rest)

def takeName (flags : Flags) : Nat → List Char → Option (List Char × List Char)
  | 0, _ => none
  | _, [] => none
  | fuel + 1, c :: cs =>
    if c = '\x7d' then some ([], cs)
    else (takeName flags fuel (flags.next cs)).map fun (name, rest) => (c :: name, rest)

def bracedClass? (name : List Char) : Option (CharClass × Bool) :=
  let byValue := fun (property value : List Char) (negated : Bool) =>
    (CharClass.byValue? (String.ofList property) (String.ofList value)).map (·, negated)
  match Text.cutFirst? ['!', '='] name with
  | some (property, value) => byValue property value true
  | none =>
    match (Text.cutFirst? [':'] name).or (Text.cutFirst? ['='] name) with
    | some (property, value) => byValue property value false
    | none => (CharClass.byName? (String.ofList name)).map (·, false)

def readProperty (flags : Flags) (negated : Bool) (cs : List Char) :
    Option (Primitive × List Char) :=
  match flags.next cs with
  | '\x7b' :: cs => do
    let (name, rest) ← takeName flags cs.length (flags.next cs)
    let (set, notEqual) ← bracedClass? name
    return (.property set (negated != notEqual), rest)
  | '\\' :: _ | [] => none
  | c :: cs => do
    let set ← CharClass.byName? (String.singleton c)
    return (.property set negated, flags.next cs)

def isBoundaryChar (c : Char) : Bool :=
  c.isAlpha || c == '-'

def takeBoundaryName (flags : Flags) : Nat → List Char → Option (List Char × List Char)
  | 0, _ => none
  | _, [] => none
  | fuel + 1, c :: cs =>
    if c = '\x7d' then some ([], cs)
    else if isBoundaryChar c then
      (takeBoundaryName flags fuel (flags.next cs)).map fun (name, rest) => (c :: name, rest)
    else none

/-- Reads what follows `\b`: a kind of boundary in braces, if there is one. Braces with
anything but a name are a repetition. -/
def readBoundary (flags : Flags) (cs : List Char) : Option (Primitive × List Char) :=
  match cs with
  | '\x7b' :: more =>
    match flags.next more with
    | [] => none
    | c :: rest =>
      if isBoundaryChar c then
        match takeBoundaryName flags (rest.length + 1) (c :: rest) with
        | some (name, rest) =>
          match String.ofList name with
          | "start" => some (.assertion .wordStart, rest)
          | "end" => some (.assertion .wordEnd, rest)
          | "start-half" => some (.assertion .wordStartHalf, rest)
          | "end-half" => some (.assertion .wordEndHalf, rest)
          | _ => none
        | none => none
      else some (.assertion .wordBoundary, cs)
  | _ => some (.assertion .wordBoundary, cs)

def readEscape (flags : Flags) : List Char → Option (Primitive × List Char)
  | [] => none
  | c :: cs =>
    if isPlainEscape c then some (.literal c false, cs)
    else
      match c with
      | 'x' => readHex flags 2 cs
      | 'u' => readHex flags 4 cs
      | 'U' => readHex flags 8 cs
      | 'p' => readProperty flags false cs
      | 'P' => readProperty flags true cs
      | 'd' => some (.shorthand .decimal false, cs)
      | 'D' => some (.shorthand .decimal true, cs)
      | 's' => some (.shorthand .blank false, cs)
      | 'S' => some (.shorthand .blank true, cs)
      | 'w' => some (.shorthand .word false, cs)
      | 'W' => some (.shorthand .word true, cs)
      | 'a' => some (.literal '\x07' false, cs)
      | 'f' => some (.literal '\x0c' false, cs)
      | 't' => some (.literal '\t' false, cs)
      | 'n' => some (.literal '\n' false, cs)
      | 'r' => some (.literal '\r' false, cs)
      | 'v' => some (.literal '\x0b' false, cs)
      | 'A' => some (.assertion .textStart, cs)
      | 'z' => some (.assertion .textEnd, cs)
      | 'b' => readBoundary flags cs
      | 'B' => some (.assertion .noWordBoundary, cs)
      | '<' => some (.assertion .wordStart, cs)
      | '>' => some (.assertion .wordEnd, cs)
      | _ => none

def readPrimitive (flags : Flags) : List Char → Option (Primitive × List Char)
  | [] => none
  | '\\' :: cs => readEscape flags cs
  | '.' :: cs => some (.dot, cs)
  | '^' :: cs => some (.assertion .lineStart, cs)
  | '$' :: cs => some (.assertion .lineEnd, cs)
  | c :: cs => some (.literal c false, cs)

/-- A class for ASCII text has to stay inside ASCII. -/
def Flags.checked? (flags : Flags) (set : CharClass) : Option CharClass :=
  if flags.ascii && !set.isAscii then none else some set

def Flags.fold (flags : Flags) (set : CharClass) : CharClass :=
  if flags.ignoreCase then Unicode.withVariants flags.ascii set else set

def shorthandClass? (flags : Flags) (kind : Shorthand) (negated : Bool) : Option CharClass :=
  let set := match kind with
    | .decimal => if flags.ascii then CharClass.asciiDigit else Unicode.Category.nd.chars
    | .blank => if flags.ascii then CharClass.asciiBlank else Unicode.whiteSpace
    | .word => if flags.ascii then CharClass.asciiWord else Unicode.word
  flags.checked? (.negatedIf negated set)

def propertyClass? (flags : Flags) (set : CharClass) (negated : Bool) : Option CharClass :=
  if flags.ascii then none else some (.negatedIf negated (flags.fold set))

def literalClass? (flags : Flags) (c : Char) (isByte : Bool) : Option CharClass :=
  if flags.ascii && c.toNat ≥ 0x80 then
    if isByte then none else some (.single c)
  else some (flags.fold (.single c))

def dotClass? (flags : Flags) : Option CharClass :=
  if flags.ascii then none
  else if flags.dotAll then some .all
  else if flags.crlf then some (CharClass.complement ⟨[(0x0A, 0x0A), (0x0D, 0x0D)]⟩)
  else some (CharClass.single '\n').complement

def AssertionKind.assertion (flags : Flags) : AssertionKind → Assertion
  | .textStart => .textStart
  | .textEnd => .textEnd
  | .lineStart =>
    if !flags.multiLine then .textStart else if flags.crlf then .crlfLineStart else .lineStart
  | .lineEnd =>
    if !flags.multiLine then .textEnd else if flags.crlf then .crlfLineEnd else .lineEnd
  | .wordBoundary => .wordBoundary flags.ascii
  | .noWordBoundary => .noWordBoundary flags.ascii
  | .wordStart => .wordStart flags.ascii
  | .wordEnd => .wordEnd flags.ascii
  | .wordStartHalf => .wordStartHalf flags.ascii
  | .wordEndHalf => .wordEndHalf flags.ascii

def Primitive.pattern? (flags : Flags) : Primitive → Option Pattern
  | .literal c isByte => (literalClass? flags c isByte).map ofClass
  | .dot => (dotClass? flags).map ofClass
  | .assertion kind => some (.assertion (kind.assertion flags))
  | .shorthand kind negated => (shorthandClass? flags kind negated).map ofClass
  | .property set negated => (propertyClass? flags set negated).map ofClass

end PackageAlgebra.Pattern
