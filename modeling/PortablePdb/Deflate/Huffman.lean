import PortablePdb.Bytes.Basic

namespace PortablePdb.Deflate

/-- A reader of bits, whose state is the number of bits read. It fails where the data ends. -/
abbrev Bits := ReaderT Bytes (StateT Nat Option)

namespace Bits

/-- The next bit. -/
def bit : Bits Nat := do
  let position ← get
  match (← read)[position / 8]? with
  | some byte =>
    set (position + 1)
    return byte.toNat >>> (position % 8) % 2
  | none => failure

/-- A number of bits, the lowest first. -/
def bits : (count : Nat) → Bits Nat
  | 0 => return 0
  | count + 1 => do
    let low ← bit
    return low + 2 * (← bits count)

/-- Skips the bits up to the next byte. -/
def skipToByte : Bits Unit :=
  modify fun position => (position + 7) / 8 * 8

/-- A number of whole bytes. -/
def wholeBytes (count : Nat) : Bits Bytes := do
  let data ← read
  let start := (← get) / 8
  if data.size < start + count then failure
  set (8 * (start + count))
  return data.extract start (start + count)

end Bits

/-- The longest code word. -/
def maxWord : Nat := 15

/-- A prefix code: the number of words of each length, and the symbols by length and order. The
words of a length are numbered in the order of their symbols, after all shorter words. -/
structure PrefixCode where
  counts : List Nat
  symbols : Array Nat
  deriving DecidableEq, Repr

namespace PrefixCode

/-- The code in which symbol `i` has a word of the length at `i`; length zero means no word. -/
def ofLengths (lengths : List Nat) : PrefixCode :=
  let ofLength (length : Nat) : List Nat :=
    lengths.zipIdx.filterMap fun (n, symbol) => if n = length then some symbol else none
  let words := (List.range' 1 maxWord).map ofLength
  ⟨words.map List.length, words.flatten.toArray⟩

/-- The share of all words of the longest length that start with a word of the code. -/
def filled (code : PrefixCode) : Nat :=
  code.counts.foldl (fun share count => 2 * share + count) 0

/-- Every sequence of bits starts with exactly one word of the code. -/
def isComplete (code : PrefixCode) : Bool :=
  code.filled == 1 <<< maxWord

/-- A code of symbols is usable if it is complete, if it has no word, or if its only word is a
single bit. -/
def isUsable (code : PrefixCode) : Bool :=
  code.isComplete || code.counts.all (· == 0) || code.counts == 1 :: List.replicate (maxWord - 1) 0

/-- Reads a symbol. The words of the present length are numbered from `first`, and their symbols
stand from `index` on. -/
def readFrom (symbols : Array Nat) (word first index : Nat) : (counts : List Nat) → Bits Nat
  | [] => failure
  | count :: counts => do
    let word := 2 * word + (← Bits.bit)
    let first := 2 * first
    if word < first + count then
      match symbols[index + (word - first)]? with
      | some symbol => return symbol
      | none => failure
    else readFrom symbols word (first + count) (index + count) counts

/-- Reads a symbol. -/
def read (code : PrefixCode) : Bits Nat :=
  readFrom code.symbols 0 0 0 code.counts

end PrefixCode

end PortablePdb.Deflate
