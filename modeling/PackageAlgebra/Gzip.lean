/-!
# Compressed files

A compressed file has a header, deflated data, and a trailer with the checksum
and the size of the data. Whatever follows the trailer is left alone. Deflated
data comes in blocks, which hold their bytes as they are or as words of a prefix
code. A code is given by the lengths of its words alone: shorter words come
first, words of one length come in the order of their symbols, and each word is
the next number that no earlier word begins.
-/

namespace PackageAlgebra.Gzip

-- ---------------------------------------------------------------------------
-- Checksums and bits
-- ---------------------------------------------------------------------------

def shiftRemainder (r : UInt32) : UInt32 :=
  if r &&& 1 = 1 then (r >>> 1) ^^^ 0xEDB88320 else r >>> 1

def addByte (r : UInt32) (b : UInt8) : UInt32 :=
  (List.range 8).foldl (fun r _ => shiftRemainder r) (r ^^^ b.toUInt32)

def checksum (bytes : List UInt8) : UInt32 :=
  bytes.foldl addByte 0xFFFFFFFF ^^^ 0xFFFFFFFF

abbrev Bits := List Bool

def bitsOfByte (b : UInt8) : Bits :=
  (List.range 8).map b.toNat.testBit

def bitsOf (bytes : List UInt8) : Bits :=
  bytes.flatMap bitsOfByte

def takeNumber? : Nat → Bits → Option (Nat × Bits)
  | 0, bits => some (0, bits)
  | _ + 1, [] => none
  | width + 1, bit :: bits => do
    let (high, rest) ← takeNumber? width bits
    return (bit.toNat + 2 * high, rest)

def takeNumbers? (width : Nat) : Nat → Bits → Option (List Nat × Bits)
  | 0, bits => some ([], bits)
  | count + 1, bits => do
    let (first, bits) ← takeNumber? width bits
    let (others, bits) ← takeNumbers? width count bits
    return (first :: others, bits)

def alignToByte (bits : Bits) : Bits :=
  bits.drop (bits.length % 8)

-- ---------------------------------------------------------------------------
-- Prefix codes
-- ---------------------------------------------------------------------------

/-- How many words have each length from one bit on, and the symbols in the order of their
words. -/
structure PrefixCode where
  counts : List Nat
  symbols : List Nat
deriving DecidableEq, Repr

namespace PrefixCode

def maxLength : Nat := 15

def ofLengths (lengths : List Nat) : PrefixCode :=
  let widths := List.range' 1 maxLength
  ⟨widths.map fun width => lengths.count width,
    widths.flatMap fun width => (lengths.zipIdx.filter (·.1 == width)).map (·.2)⟩

/-- The part that the words take up of all texts of the greatest length. -/
def space (code : PrefixCode) : Nat :=
  code.counts.foldl (fun total count => 2 * total + count) 0

def isComplete (code : PrefixCode) : Bool :=
  code.space == 1 <<< maxLength

/-- Reads a word bit by bit. The words of the lengths still to come begin at `first`, and
`symbols` are theirs; `value` is the number that the bits so far make up. -/
def readFrom (symbols : List Nat) (first value : Nat) : List Nat → Bits → Option (Nat × Bits)
  | count :: counts, bit :: bits =>
    let value := 2 * value + bit.toNat
    -- the words of this length are the numbers from `first` on, `count` of them
    if value < first + count then (symbols[value - first]?).map (·, bits)
    else readFrom (symbols.drop count) (2 * (first + count)) value counts bits
  | _, _ => none

/-- Takes a word off the front and gives its symbol. -/
def read? (code : PrefixCode) (bits : Bits) : Option (Nat × Bits) :=
  readFrom code.symbols 0 0 code.counts bits

end PrefixCode

-- ---------------------------------------------------------------------------
-- Deflated data
-- ---------------------------------------------------------------------------

structure BlockCodes where
  literals : PrefixCode
  distances : PrefixCode

def BlockCodes.fixed : BlockCodes where
  literals := .ofLengths (List.replicate 144 8 ++ List.replicate 112 9 ++ List.replicate 24 7 ++
    List.replicate 8 8)
  distances := .ofLengths (List.replicate 32 5)

/-- The shortest length and the number of further bits for each symbol of a length. -/
def lengthClasses : List (Nat × Nat) :=
  [(3, 0), (4, 0), (5, 0), (6, 0), (7, 0), (8, 0), (9, 0), (10, 0), (11, 1), (13, 1), (15, 1),
    (17, 1), (19, 2), (23, 2), (27, 2), (31, 2), (35, 3), (43, 3), (51, 3), (59, 3), (67, 4),
    (83, 4), (99, 4), (115, 4), (131, 5), (163, 5), (195, 5), (227, 5), (258, 0)]

def distanceClasses : List (Nat × Nat) :=
  [(1, 0), (2, 0), (3, 0), (4, 0), (5, 1), (7, 1), (9, 2), (13, 2), (17, 3), (25, 3), (33, 4),
    (49, 4), (65, 5), (97, 5), (129, 6), (193, 6), (257, 7), (385, 7), (513, 8), (769, 8),
    (1025, 9), (1537, 9), (2049, 10), (3073, 10), (4097, 11), (6145, 11), (8193, 12),
    (12289, 12), (16385, 13), (24577, 13)]

/-- The number that a symbol's class and the further bits make up. -/
def readClass? (classes : List (Nat × Nat)) (symbol : Nat) (bits : Bits) :
    Option (Nat × Bits) := do
  let (least, width) ← classes[symbol]?
  let (further, bits) ← takeNumber? width bits
  return (least + further, bits)

/-- Appends bytes that stand `distance` back, one by one, so that a copy may run into itself. -/
def copyBack? (distance : Nat) : Nat → Array UInt8 → Option (Array UInt8)
  | 0, out => some out
  | count + 1, out =>
    if distance ≤ out.size then
      (out[out.size - distance]?).bind fun b => copyBack? distance count (out.push b)
    else none

def endOfBlock : Nat := 256

/-- Reads words up to the end of the block; each takes at least one bit, so `fuel` is more than
the number of bits. -/
def readWords (codes : BlockCodes) : Nat → Bits → Array UInt8 → Option (Bits × Array UInt8)
  | 0, _, _ => none
  | fuel + 1, bits, out => do
    let (symbol, bits) ← codes.literals.read? bits
    if symbol < endOfBlock then readWords codes fuel bits (out.push symbol.toUInt8)
    else if symbol = endOfBlock then return (bits, out)
    else
      let (length, bits) ← readClass? lengthClasses (symbol - endOfBlock - 1) bits
      let (symbol, bits) ← codes.distances.read? bits
      let (distance, bits) ← readClass? distanceClasses symbol bits
      readWords codes fuel bits (← copyBack? distance length out)

def lengthOrder : List Nat :=
  [16, 17, 18, 0, 8, 7, 9, 6, 10, 5, 11, 4, 12, 3, 13, 2, 14, 1, 15]

/-- Reads `missing` lengths behind those of `known`, the last one first. Three symbols repeat:
the length before, or zero a few or many times. -/
def readLengths (code : PrefixCode) : Nat → Nat → List Nat → Bits → Option (List Nat × Bits)
  | _, 0, known, bits => some (known.reverse, bits)
  | 0, _ + 1, _, _ => none
  | fuel + 1, missing + 1, known, bits => do
    let (symbol, bits) ← code.read? bits
    if symbol < 16 then readLengths code fuel missing (symbol :: known) bits
    else
      let (again, least, width) ←
        if symbol = 16 then known.head?.map (·, 3, 2)
        else if symbol = 17 then some (0, 3, 3)
        else some (0, 11, 7)
      let (further, bits) ← takeNumber? width bits
      let count := least + further
      -- a repetition must not run past the last length
      if count ≤ missing + 1 then
        readLengths code fuel (missing + 1 - count) (List.replicate count again ++ known) bits
      else none

/-- Whether a code may stand in a block: only a code with no word, or with one word of one bit,
may leave bits out. -/
def isUsable (code : PrefixCode) : Bool :=
  code.isComplete || code.symbols.isEmpty ||
    (code.symbols.length = 1 && code.counts.head? = some 1)

def readCodes? (bits : Bits) : Option (BlockCodes × Bits) := do
  let (literals, bits) ← takeNumber? 5 bits
  let (distances, bits) ← takeNumber? 5 bits
  let (given, bits) ← takeNumber? 4 bits
  let literals := literals + 257
  let distances := distances + 1
  if 286 < literals || 30 < distances then none
  else
    let (widths, bits) ← takeNumbers? 3 (given + 4) bits
    let code := PrefixCode.ofLengths
      ((List.range 19).map fun symbol => ((lengthOrder.zip widths).lookup symbol).getD 0)
    if !code.isComplete then none
    else
      let count := literals + distances
      -- both lists of lengths are one run; a repetition may go on from the first to the second
      let (lengths, bits) ← readLengths code count count [] bits
      let codes : BlockCodes :=
        ⟨.ofLengths (lengths.take literals), .ofLengths (lengths.drop literals)⟩
      if isUsable codes.literals && isUsable codes.distances then some (codes, bits) else none

def readStored? (bits : Bits) (out : Array UInt8) : Option (Bits × Array UInt8) := do
  let (size, bits) ← takeNumber? 16 (alignToByte bits)
  let (complement, bits) ← takeNumber? 16 bits
  if size + complement = 0xFFFF then
    let (bytes, bits) ← takeNumbers? 8 size bits
    return (bits, out ++ (bytes.map Nat.toUInt8).toArray)
  else none

/-- Reads blocks up to the last one; `fuel` is more than the number of bits. -/
def readBlocks : Nat → Bits → Array UInt8 → Option (Bits × Array UInt8)
  | 0, _, _ => none
  | fuel + 1, bits, out => do
    let (isLast, bits) ← takeNumber? 1 bits
    let (kind, bits) ← takeNumber? 2 bits
    let (bits, out) ←
      if kind = 0 then readStored? bits out
      else if kind = 1 then readWords .fixed (bits.length + 1) bits out
      else if kind = 2 then do
        let (codes, bits) ← readCodes? bits
        readWords codes (bits.length + 1) bits out
      else none
    if isLast = 1 then return (bits, out) else readBlocks fuel bits out

def inflate? (bits : Bits) : Option (Bits × Array UInt8) :=
  readBlocks (bits.length + 1) bits #[]

-- ---------------------------------------------------------------------------
-- Compressed files
-- ---------------------------------------------------------------------------

def skip? (count : Nat) (bytes : List UInt8) : Option (List UInt8) :=
  if count ≤ bytes.length then some (bytes.drop count) else none

def maxTextLength : Nat := 0xFFFF

def skipText? (bytes : List UInt8) : Option (List UInt8) :=
  match bytes.span (· != 0) with
  | (text, _ :: rest) => if text.length ≤ maxTextLength then some rest else none
  | (_, []) => none

def skipSized? : List UInt8 → Option (List UInt8)
  | low :: high :: rest => skip? (low.toNat + 256 * high.toNat) rest
  | _ => none

def skipIf (flags : UInt8) (bit : Nat) (field : List UInt8 → Option (List UInt8))
    (bytes : List UInt8) : Option (List UInt8) :=
  if flags.toNat.testBit bit then field bytes else some bytes

/-- Drops the check of the header, the lower half of the checksum of all bytes before it. -/
def skipHeaderCheck? (file : List UInt8) (bytes : List UInt8) : Option (List UInt8) :=
  match bytes with
  | low :: high :: rest =>
    let found := low.toNat + 256 * high.toNat
    let header := file.take (file.length - bytes.length)
    if (checksum header).toNat % UInt16.size = found then some rest else none
  | _ => none

def skipHeader? (file : List UInt8) : Option (List UInt8) :=
  match file with
  | 0x1F :: 0x8B :: 0x08 :: flags :: rest =>
    if 32 ≤ flags.toNat then none
    else do
      let rest ← skip? 6 rest
      let rest ← skipIf flags 2 skipSized? rest
      let rest ← skipIf flags 3 skipText? rest
      let rest ← skipIf flags 4 skipText? rest
      skipIf flags 1 (skipHeaderCheck? file) rest
  | _ => none

/-- The data of a compressed file. -/
def expand? (file : List UInt8) : Option (List UInt8) := do
  let deflated ← skipHeader? file
  let (bits, data) ← inflate? (bitsOf deflated)
  let (check, bits) ← takeNumber? 32 (alignToByte bits)
  let (size, _) ← takeNumber? 32 bits
  let data := data.toList
  if (checksum data).toNat = check && data.length % UInt32.size = size then some data else none

end PackageAlgebra.Gzip
