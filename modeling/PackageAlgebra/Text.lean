import PackageAlgebra.Unicode.Derived

/-!
# Texts

What the readers of versions, atoms, paths and documents share. Blanks are the
characters of Unicode's `White_Space`, decimal digits those of its category
`Nd`; a number is read from and written with the ASCII digits alone.
-/

namespace PackageAlgebra.Text

-- ---------------------------------------------------------------------------
-- Blanks and words
-- ---------------------------------------------------------------------------

def isBlank (c : Char) : Bool :=
  let n := c.toNat
  (9 ≤ n && n ≤ 13) || n == 0x20 || n == 0x85 || n == 0xA0 || n == 0x1680 ||
    (0x2000 ≤ n && n ≤ 0x200A) || n == 0x2028 || n == 0x2029 || n == 0x202F ||
    n == 0x205F || n == 0x3000

def trimEnd (cs : List Char) : List Char :=
  (cs.reverse.dropWhile isBlank).reverse

def trim (cs : List Char) : List Char :=
  trimEnd (cs.dropWhile isBlank)

/-- The word at the front of the text joined to `word`, its part already read,
and then the words behind it. -/
def wordsFrom (word : List Char) : List Char → List (List Char)
  | [] => if word.isEmpty then [] else [word]
  | c :: cs =>
    if isBlank c then
      if word.isEmpty then wordsFrom [] cs else word :: wordsFrom [] cs
    else wordsFrom (word ++ [c]) cs

def words (cs : List Char) : List (List Char) :=
  wordsFrom [] cs

def wordsOf (s : String) : List String :=
  (words s.toList).map String.ofList

theorem trimEnd_of_getLast {cs : List Char} (h : ∀ c ∈ cs.getLast?, isBlank c = false) :
    trimEnd cs = cs := by
  cases hr : cs.reverse with
  | nil => simp [trimEnd, List.reverse_eq_nil_iff.mp hr]
  | cons c rest =>
    have hcs : cs = rest.reverse ++ [c] := by
      rw [← List.reverse_reverse cs, hr]; simp
    have hc : isBlank c = false := h c (by simp [hcs])
    simp [trimEnd, hcs, hc]

theorem trim_of_ends {cs : List Char} (hh : ∀ c ∈ cs.head?, isBlank c = false)
    (hl : ∀ c ∈ cs.getLast?, isBlank c = false) : trim cs = cs := by
  have hd : cs.dropWhile isBlank = cs := by
    cases cs with
    | nil => rfl
    | cons c rest => simp [hh c (by simp)]
  rw [trim, hd, trimEnd_of_getLast hl]

-- ---------------------------------------------------------------------------
-- Cuts
-- ---------------------------------------------------------------------------

def cutFirst? (mark : List Char) : List Char → Option (List Char × List Char)
  | [] => if mark.isEmpty then some ([], []) else none
  | c :: cs =>
    match mark.isPrefixOf? (c :: cs) with
    | some rest => some ([], rest)
    | none => (cutFirst? mark cs).map fun (before, rest) => (c :: before, rest)

def cutLast? (mark : Char) : List Char → Option (List Char × List Char)
  | [] => none
  | c :: cs =>
    match cutLast? mark cs with
    | some (before, rest) => some (c :: before, rest)
    | none => if c = mark then some ([], cs) else none

@[simp] theorem nil_isPrefixOf? (cs : List Char) : List.isPrefixOf? [] cs = some cs :=
  rfl

@[simp] theorem cons_isPrefixOf?_nil (m : Char) (mark : List Char) :
    (m :: mark).isPrefixOf? [] = none :=
  rfl

@[simp] theorem cons_isPrefixOf?_cons (m c : Char) (mark cs : List Char) :
    (m :: mark).isPrefixOf? (c :: cs) = if m == c then mark.isPrefixOf? cs else none :=
  rfl

theorem eq_append_of_isPrefixOf? {mark cs rest : List Char}
    (h : mark.isPrefixOf? cs = some rest) : cs = mark ++ rest := by
  induction mark generalizing cs with
  | nil => simpa using h
  | cons m mark ih =>
    cases cs with
    | nil => simp at h
    | cons c cs =>
      rw [cons_isPrefixOf?_cons] at h
      split at h
      · rename_i hm
        simp only [beq_iff_eq] at hm
        rw [hm, ih h, List.cons_append]
      · simp at h

theorem join_of_cutFirst? {mark cs before rest : List Char}
    (h : cutFirst? mark cs = some (before, rest)) : cs = before ++ mark ++ rest := by
  induction cs generalizing before with
  | nil =>
    simp only [cutFirst?] at h
    split at h <;> simp_all
  | cons c cs ih =>
    simp only [cutFirst?] at h
    split at h
    · rename_i hp
      simp only [Option.some.injEq, Prod.mk.injEq] at h
      obtain ⟨rfl, rfl⟩ := h
      simpa using eq_append_of_isPrefixOf? hp
    · obtain ⟨⟨front, back⟩, hcut, heq⟩ := Option.map_eq_some_iff.mp h
      simp only [Prod.mk.injEq] at heq
      obtain ⟨rfl, rfl⟩ := heq
      simp [ih hcut]

theorem not_mem_of_cutLast? {mark : Char} {cs : List Char} (h : cutLast? mark cs = none) :
    mark ∉ cs := by
  induction cs with
  | nil => simp
  | cons c cs ih =>
    simp only [cutLast?] at h
    split at h
    · simp at h
    · rename_i hc
      split at h
      · simp at h
      · rename_i hne
        simpa [Ne.symm hne] using ih hc

theorem join_of_cutLast? {mark : Char} {cs before rest : List Char}
    (h : cutLast? mark cs = some (before, rest)) :
    cs = before ++ mark :: rest ∧ mark ∉ rest := by
  induction cs generalizing before with
  | nil => simp [cutLast?] at h
  | cons c cs ih =>
    simp only [cutLast?] at h
    split at h
    · rename_i hcut
      simp only [Option.some.injEq, Prod.mk.injEq] at h
      obtain ⟨rfl, rfl⟩ := h
      simpa using ih hcut
    · rename_i hcut
      split at h
      · rename_i hc
        simp only [Option.some.injEq, Prod.mk.injEq] at h
        obtain ⟨rfl, rfl⟩ := h
        exact ⟨by simp [hc], not_mem_of_cutLast? hcut⟩
      · simp at h

-- ---------------------------------------------------------------------------
-- Digits and names
-- ---------------------------------------------------------------------------

def decimalZeros : List Nat :=
  [0x0030, 0x0660, 0x06F0, 0x07C0, 0x0966, 0x09E6, 0x0A66, 0x0AE6, 0x0B66, 0x0BE6, 0x0C66, 0x0CE6,
    0x0D66, 0x0DE6, 0x0E50, 0x0ED0, 0x0F20, 0x1040, 0x1090, 0x17E0, 0x1810, 0x1946, 0x19D0,
    0x1A80, 0x1A90, 0x1B50, 0x1BB0, 0x1C40, 0x1C50, 0xA620, 0xA8D0, 0xA900, 0xA9D0, 0xA9F0,
    0xAA50, 0xABF0, 0xFF10, 0x104A0, 0x10D30, 0x10D40, 0x11066, 0x110F0, 0x11136, 0x111D0,
    0x112F0, 0x11450, 0x114D0, 0x11650, 0x116C0, 0x116D0, 0x116DA, 0x11730, 0x118E0, 0x11950,
    0x11BF0, 0x11C50, 0x11D50, 0x11DA0, 0x11F50, 0x16130, 0x16A60, 0x16AC0, 0x16B50, 0x16D70,
    0x1CCF0, 0x1D7CE, 0x1D7D8, 0x1D7E2, 0x1D7EC, 0x1D7F6, 0x1E140, 0x1E2F0, 0x1E4F0, 0x1E5F1,
    0x1E950, 0x1FBF0]

def isDecimal (c : Char) : Bool :=
  decimalZeros.any fun first => first ≤ c.toNat && c.toNat ≤ first + 9

def isDigit (c : Char) : Bool :=
  '0' ≤ c && c ≤ '9'

/-- The number that a text of ASCII digits writes; the empty text writes zero. -/
def numberOf (cs : List Char) : Nat :=
  cs.foldl (fun n c => 10 * n + (c.toNat - '0'.toNat)) 0

def number? (cs : List Char) : Option Nat :=
  if !cs.isEmpty && cs.all isDigit then some (numberOf cs) else none

def int32? (cs : List Char) : Option Int32 :=
  let value := match cs with
    | '-' :: rest => (number? rest).map fun n => -(n : Int)
    | '+' :: rest => (number? rest).map fun n => (n : Int)
    | _ => (number? cs).map fun n => (n : Int)
  value.bind fun n =>
    if Int32.minValue.toInt ≤ n && n ≤ Int32.maxValue.toInt then some (Int32.ofInt n) else none

def digits (n : Nat) : List Char :=
  Nat.toDigits 10 n

def isNameStart (c : Char) : Bool :=
  c.isAlphanum || c == '_'

/-- A non-empty name that may hold any of `marks` behind its first character. -/
def isNameWith (marks : List Char) : List Char → Bool
  | [] => false
  | c :: cs => isNameStart c && cs.all fun d => isNameStart d || marks.contains d

def isCategoryName (cs : List Char) : Bool :=
  isNameWith ['+', '.', '-'] cs

def isPackageName (cs : List Char) : Bool :=
  isNameWith ['+', '-'] cs

def isSlotName (cs : List Char) : Bool :=
  isNameWith ['+', '.', '-'] cs

def isRepositoryName (cs : List Char) : Bool :=
  isNameWith ['-'] cs

/-- A USE flag; unlike the other names it cannot begin with an underscore. -/
def isFlagName : List Char → Bool
  | [] => false
  | c :: cs => c.isAlphanum && cs.all fun d => isNameStart d || ['+', '@', '-'].contains d

-- ---------------------------------------------------------------------------
-- Bytes and quoted text
-- ---------------------------------------------------------------------------

/-- The characters from place `i` on; `fuel` is the number of bytes that are left. -/
def symbolsFrom (bytes : ByteArray) (i : Nat) : Nat → List (Option Char)
  | 0 => []
  | fuel + 1 =>
    match bytes.utf8DecodeChar? i with
    | some c => some c :: symbolsFrom bytes (i + c.utf8Size) (fuel + 1 - c.utf8Size)
    | none => none :: symbolsFrom bytes (i + 1) fuel
termination_by fuel => fuel
decreasing_by
  · have := c.utf8Size_pos
    omega
  · omega

def symbolsOf (s : String) : List (Option Char) :=
  s.toList.map some

def symbols (bytes : ByteArray) : List (Option Char) :=
  match String.fromUTF8? bytes with
  | some s => symbolsOf s
  | none => symbolsFrom bytes 0 bytes.size

def codePoint (c : Char) : List Char :=
  ['\\', 'u', '\x7b'] ++ Nat.toDigits 16 c.toNat ++ ['\x7d']

def quotedChar (c : Char) : List Char :=
  match c with
  | '\x00' => ['\\', '0']
  | '\t' => ['\\', 't']
  | '\r' => ['\\', 'r']
  | '\n' => ['\\', 'n']
  | '"' => ['\\', '"']
  | '\\' => ['\\', '\\']
  | c =>
    if (' ' ≤ c && c ≤ '~') || Unicode.visibleChars.mem c then [c] else codePoint c

def quoted (s : String) : String :=
  String.ofList ('"' :: s.toList.flatMap quotedChar ++ ['"'])

end PackageAlgebra.Text
