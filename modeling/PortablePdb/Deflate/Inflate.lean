import PortablePdb.Deflate.Huffman
import PortablePdb.Error

namespace PortablePdb.Deflate

/-- The codes of a block: of literals and lengths, and of distances. -/
structure Codes where
  literals : PrefixCode
  distances : PrefixCode

/-- The codes of a block that does not bring its own. -/
def Codes.fixed : Codes where
  literals := .ofLengths <| List.replicate 144 8 ++ List.replicate 112 9 ++ List.replicate 24 7 ++
    List.replicate 8 8
  distances := .ofLengths <| List.replicate 32 5

/-- The shortest length of each length symbol from 257 on, and the number of bits added to it. -/
def lengthTable : Array (Nat × Nat) :=
  #[(3, 0), (4, 0), (5, 0), (6, 0), (7, 0), (8, 0), (9, 0), (10, 0), (11, 1), (13, 1), (15, 1),
    (17, 1), (19, 2), (23, 2), (27, 2), (31, 2), (35, 3), (43, 3), (51, 3), (59, 3), (67, 4),
    (83, 4), (99, 4), (115, 4), (131, 5), (163, 5), (195, 5), (227, 5), (258, 0)]

/-- The shortest distance of each distance symbol, and the number of bits added to it. -/
def distanceTable : Array (Nat × Nat) :=
  #[(1, 0), (2, 0), (3, 0), (4, 0), (5, 1), (7, 1), (9, 2), (13, 2), (17, 3), (25, 3), (33, 4),
    (49, 4), (65, 5), (97, 5), (129, 6), (193, 6), (257, 7), (385, 7), (513, 8), (769, 8),
    (1025, 9), (1537, 9), (2049, 10), (3073, 10), (4097, 11), (6145, 11), (8193, 12), (12289, 12),
    (16385, 13), (24577, 13)]

/-- The order in which the lengths of the code of code lengths are given. -/
def lengthOrder : List Nat :=
  [16, 17, 18, 0, 8, 7, 9, 6, 10, 5, 11, 4, 12, 3, 13, 2, 14, 1, 15]

/-- A number that a table gives for a symbol, with its added bits. -/
def readNumber (table : Array (Nat × Nat)) (symbol : Nat) : Bits Nat := do
  match table[symbol]? with
  | some (base, extra) => return base + (← Bits.bits extra)
  | none => failure

/-- The byte at a distance before the end of the output. Zeros stand before its start. -/
def byteBack (out : Bytes) (distance : Nat) : UInt8 :=
  if out.size < distance then 0 else out.getD (out.size - distance) 0

/-- The last bytes of the output are repeated from a distance before its end. -/
def copy (out : Bytes) (length distance : Nat) : Bytes :=
  Nat.repeat (fun out => out.push (byteBack out distance)) length out

/-- Reads the symbols of a block up to its end and adds their bytes to the output; `fuel` bounds the
number of symbols. -/
def readSymbols (codes : Codes) : (fuel : Nat) → Bytes → Bits Bytes
  | 0, _ => failure
  | fuel + 1, out => do
    let symbol ← codes.literals.read
    if symbol < 256 then readSymbols codes fuel (out.push symbol.toUInt8)
    else if symbol = 256 then return out
    else
      let length ← readNumber lengthTable (symbol - 257)
      let distance ← readNumber distanceTable (← codes.distances.read)
      readSymbols codes fuel (copy out length distance)

/-- Reads code lengths until there are `count` of them; `fuel` bounds the number of symbols. -/
def readLengths (code : PrefixCode) (count : Nat) : (fuel : Nat) → List Nat → Bits (List Nat)
  | 0, _ => failure
  | fuel + 1, lengths => do
    if count < lengths.length then failure
    if lengths.length = count then return lengths
    let symbol ← code.read
    if symbol < 16 then readLengths code count fuel (lengths ++ [symbol])
    else if symbol = 16 then
      match lengths.getLast? with
      | some last =>
        let times := 3 + (← Bits.bits 2)
        readLengths code count fuel (lengths ++ List.replicate times last)
      | none => failure
    else
      let times ← if symbol = 17 then (3 + ·) <$> Bits.bits 3 else (11 + ·) <$> Bits.bits 7
      readLengths code count fuel (lengths ++ List.replicate times 0)

/-- Reads the codes that a block brings. -/
def readCodes : Bits Codes := do
  let literals := 257 + (← Bits.bits 5)
  let distances := 1 + (← Bits.bits 5)
  let count := 4 + (← Bits.bits 4)
  if 286 < literals || 30 < distances then failure
  let given ← (lengthOrder.take count).mapM fun symbol => return (symbol, ← Bits.bits 3)
  let code := PrefixCode.ofLengths ((List.range 19).map fun symbol =>
    (List.lookup symbol given).getD 0)
  if !code.isComplete then failure
  let lengths ← readLengths code (literals + distances) (literals + distances + 1) []
  let codes : Codes := ⟨.ofLengths (lengths.take literals), .ofLengths (lengths.drop literals)⟩
  if codes.literals.isUsable && codes.distances.isUsable then return codes else failure

/-- Reads a block of stored bytes, whose count is given twice, the second time with all bits
changed. -/
def readStored (out : Bytes) : Bits Bytes := do
  Bits.skipToByte
  let size ← Bits.bits 16
  let check ← Bits.bits 16
  if size + check ≠ 0xFFFF then failure
  return out ++ (← Bits.wholeBytes size)

/-- Reads a block, except for its mark. -/
def readBlock (out : Bytes) : Bits Bytes := do
  let fuel := 8 * (← read).size + 1
  match ← Bits.bits 2 with
  | 0 => readStored out
  | 1 => readSymbols Codes.fixed fuel out
  | 2 => readSymbols (← readCodes) fuel out
  | _ => failure

/-- Reads blocks up to the one marked as the last; `fuel` bounds their number. -/
def readBlocks : (fuel : Nat) → Bytes → Bits Bytes
  | 0, _ => failure
  | fuel + 1, out => do
    let isLast ← Bits.bit
    let out ← readBlock out
    if isLast = 1 then return out else readBlocks fuel out

/-- The bytes of a stream; what follows its last block does not matter. -/
def inflate? (stream : Bytes) : Option Bytes :=
  ((readBlocks (8 * stream.size + 1) #[]).run stream |>.run 0).map (·.1)

/-- The bytes of a stream, of which there have to be a known number. -/
def inflate (stream : Bytes) (expected : Nat) : Except Error Bytes :=
  match inflate? stream with
  | none => reject .deflate
  | some data =>
    if data.size = expected then .ok data else reject (.inflatedSize data.size expected)

/-- The most bytes that a stored block can hold. -/
def maxStored : Nat := 0xFFFF

/-- A block of stored bytes. -/
def storedBlock (isLast : Bool) (data : Bytes) : Bytes :=
  #[if isLast then 1 else 0] ++ Bytes.ofNatLE 2 data.size ++
    Bytes.ofNatLE 2 (0xFFFF - data.size) ++ data

/-- Stored blocks for the data from a position on. -/
def storedBlocks (data : Bytes) (position : Nat) : Bytes :=
  if data.size ≤ position + maxStored then storedBlock true (data.extract position)
  else
    storedBlock false (data.extract position (position + maxStored)) ++
      storedBlocks data (position + maxStored)
  termination_by data.size - position
  decreasing_by simp only [maxStored] at *; omega

/-- A stream of the data: an empty block of symbols where there is none, else stored blocks. -/
def deflate (data : Bytes) : Bytes :=
  if data.isEmpty then #[0x03, 0x00] else storedBlocks data 0

end PortablePdb.Deflate
