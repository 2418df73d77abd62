import PackageAlgebra.Json.Basic
import PackageAlgebra.Text

/-!
# Reading JSON

The reader takes symbols, which are characters or bytes that are none: such
bytes may stand inside a string literal, which then spells no text.
-/

namespace PackageAlgebra.Json

/-- A character, or `none` for a byte that is part of no character. -/
abbrev Symbol := Option Char

def isSpace : Symbol → Bool
  | some c => c == ' ' || c == '\n' || c == '\t' || c == '\r'
  | none => false

def skipSpaces (cs : List Symbol) : List Symbol :=
  cs.dropWhile isSpace

def hexValue? (c : Char) : Option Nat :=
  if '0' ≤ c && c ≤ '9' then some (c.toNat - '0'.toNat)
  else if 'a' ≤ c && c ≤ 'f' then some (c.toNat - 'a'.toNat + 10)
  else if 'A' ≤ c && c ≤ 'F' then some (c.toNat - 'A'.toNat + 10)
  else none

def codeUnit? (a b c d : Char) : Option Nat :=
  match hexValue? a, hexValue? b, hexValue? c, hexValue? d with
  | some a, some b, some c, some d => some (((a * 16 + b) * 16 + c) * 16 + d)
  | _, _, _, _ => none

def isHighSurrogate (n : Nat) : Bool :=
  0xD800 ≤ n && n ≤ 0xDBFF

def isLowSurrogate (n : Nat) : Bool :=
  0xDC00 ≤ n && n ≤ 0xDFFF

def surrogatePair (high low : Nat) : Char :=
  Char.ofNat (0x10000 + (high - 0xD800) * 0x400 + (low - 0xDC00))

def shortEscape? (c : Char) : Option Char :=
  match c with
  | '"' => some '"'
  | '\\' => some '\\'
  | '/' => some '/'
  | 'b' => some '\x08'
  | 'f' => some '\x0c'
  | 'n' => some '\n'
  | 'r' => some '\r'
  | 't' => some '\t'
  | _ => none

/-- What has been read of a string literal: its characters, the last first, or `none` once it
spells no text, and the first half of a surrogate pair whose second half has to follow. -/
structure Spelled where
  read : Option (List Char)
  high : Option Nat

namespace Spelled

def empty : Spelled := ⟨some [], none⟩

/-- A half pair that nothing completes spells no text. -/
def finished (s : Spelled) : Option (List Char) :=
  if s.high.isSome then none else s.read

def push (s : Spelled) (c : Char) : Spelled :=
  ⟨s.finished.map (c :: ·), none⟩

def pushUnit (s : Spelled) (unit : Nat) : Spelled :=
  if isLowSurrogate unit then
    ⟨s.high.bind fun high => s.read.map (surrogatePair high unit :: ·), none⟩
  else if isHighSurrogate unit then ⟨s.finished, some unit⟩
  else s.push (Char.ofNat unit)

def text? (s : Spelled) : Option String :=
  s.finished.map fun read => String.ofList read.reverse

end Spelled

/-- Reads a literal from behind its opening quote to its closing one. -/
def readString (s : Spelled) : List Symbol → Option (Option String × List Symbol)
  | [] => none
  | some '"' :: cs => some (s.text?, cs)
  | some '\\' :: some 'u' :: some a :: some b :: some c :: some d :: cs =>
    match codeUnit? a b c d with
    | some unit => readString (s.pushUnit unit) cs
    | none => none
  | some '\\' :: some c :: cs =>
    match shortEscape? c with
    | some d => readString (s.push d) cs
    | none => none
  | some '\\' :: _ => none
  -- a control character has to be escaped
  | some c :: cs => if c.toNat < 0x20 then none else readString (s.push c) cs
  | none :: cs => readString ⟨none, none⟩ cs

def isDigitSymbol : Symbol → Bool
  | some c => Text.isDigit c
  | none => false

def takeDigits (cs : List Symbol) : List Char × List Symbol :=
  ((cs.takeWhile isDigitSymbol).filterMap id, cs.dropWhile isDigitSymbol)

/-- The digits before the point: zero alone or a run that does not begin with zero. -/
def readWhole (cs : List Symbol) : Option (List Char × List Symbol) :=
  match takeDigits cs with
  | ([], _) => none
  | ('0' :: _ :: _, _) => none -- no digit may follow a leading zero
  | (digits, rest) => some (digits, rest)

def readFraction : List Symbol → Option (List Char × List Symbol)
  | some '.' :: cs =>
    match takeDigits cs with
    | ([], _) => none
    | (digits, rest) => some ('.' :: digits, rest)
  | cs => some ([], cs)

def isSign (c : Char) : Bool :=
  c == '+' || c == '-'

def readExponent : List Symbol → Option (List Char × List Symbol)
  | some e :: cs =>
    if e == 'e' || e == 'E' then
      let (sign, cs) := match cs with
        | some s :: more => if isSign s then ([s], more) else ([], cs)
        | cs => ([], cs)
      match takeDigits cs with
      | ([], _) => none
      | (digits, rest) => some (e :: sign ++ digits, rest)
    else some ([], some e :: cs)
  | cs => some ([], cs)

def readNumber (cs : List Symbol) : Option (Json × List Symbol) := do
  let (sign, cs) := match cs with
    | some '-' :: more => (['-'], more)
    | cs => ([], cs)
  let (whole, cs) ← readWhole cs
  let (fraction, cs) ← readFraction cs
  let (exponent, cs) ← readExponent cs
  return (.number (String.ofList (sign ++ whole ++ fraction ++ exponent)), cs)

def readWord (word : List Char) (value : Json) (cs : List Symbol) : Option (Json × List Symbol) :=
  ((word.map some).isPrefixOf? cs).map fun rest => (value, rest)

def readKey (cs : List Symbol) : Option (Option String × List Symbol) :=
  match cs with
  | some '"' :: more =>
    match readString .empty more with
    | some (key, rest) =>
      match skipSpaces rest with
      | some ':' :: rest => some (key, rest)
      | _ => none
    | none => none
  | _ => none

mutual

/-- Reads a value, with blanks in front of it. Each call takes up at least one symbol, so the
number of symbols is enough fuel. -/
def readValue : Nat → List Symbol → Option (Json × List Symbol)
  | 0, _ => none
  | fuel + 1, cs =>
    match skipSpaces cs with
    | some '"' :: cs =>
      match readString .empty cs with
      | some (s, rest) => some (.string s, rest)
      | none => none
    | some '[' :: cs =>
      match skipSpaces cs with
      | some ']' :: rest => some (.array [], rest)
      | cs =>
        match readItems fuel cs with
        | some (items, rest) => some (.array items, rest)
        | none => none
    | some '\x7b' :: cs =>
      match skipSpaces cs with
      | some '\x7d' :: rest => some (.object [], rest)
      | cs =>
        match readMembers fuel cs with
        | some (members, rest) => some (.object members, rest)
        | none => none
    | some 'n' :: cs => readWord "ull".toList .null cs
    | some 't' :: cs => readWord "rue".toList (.bool true) cs
    | some 'f' :: cs => readWord "alse".toList (.bool false) cs
    | cs => readNumber cs

def readItems : Nat → List Symbol → Option (List Json × List Symbol)
  | 0, _ => none
  | fuel + 1, cs =>
    match readValue fuel cs with
    | none => none
    | some (item, rest) =>
      match skipSpaces rest with
      | some ']' :: rest => some ([item], rest)
      | some ',' :: rest =>
        match readItems fuel rest with
        | some (items, rest) => some (item :: items, rest)
        | none => none
      | _ => none

def readMembers : Nat → List Symbol → Option (List (Option String × Json) × List Symbol)
  | 0, _ => none
  | fuel + 1, cs =>
    match readKey (skipSpaces cs) with
    | none => none
    | some (key, rest) =>
      match readValue fuel rest with
      | none => none
      | some (value, rest) =>
        match skipSpaces rest with
        | some '\x7d' :: rest => some ([(key, value)], rest)
        | some ',' :: rest =>
          match readMembers fuel rest with
          | some (members, rest) => some ((key, value) :: members, rest)
          | none => none
        | _ => none

end

def read? (cs : List Symbol) : Option Json :=
  match readValue (2 * cs.length + 1) cs with
  | some (value, rest) => if (skipSpaces rest).isEmpty then some value else none
  | none => none

def ofString? (s : String) : Option Json :=
  read? (Text.symbolsOf s)

def ofBytes? (bytes : ByteArray) : Option Json :=
  read? (Text.symbols bytes)

end PackageAlgebra.Json
