import PortablePdb.Bytes.Basic

namespace PortablePdb.Sha256

/-- The eight words that a digest is made of. -/
structure State where
  a : UInt32
  b : UInt32
  c : UInt32
  d : UInt32
  e : UInt32
  f : UInt32
  g : UInt32
  h : UInt32
  deriving DecidableEq, Repr

/-- The state before the first block. -/
def State.initial : State :=
  ⟨0x6a09e667, 0xbb67ae85, 0x3c6ef372, 0xa54ff53a, 0x510e527f,
    0x9b05688c, 0x1f83d9ab, 0x5be0cd19⟩

/-- The constants of the rounds. -/
def constants : List UInt32 :=
  [ 0x428a2f98, 0x71374491, 0xb5c0fbcf, 0xe9b5dba5, 0x3956c25b, 0x59f111f1,
    0x923f82a4, 0xab1c5ed5, 0xd807aa98, 0x12835b01, 0x243185be, 0x550c7dc3,
    0x72be5d74, 0x80deb1fe, 0x9bdc06a7, 0xc19bf174, 0xe49b69c1, 0xefbe4786,
    0x0fc19dc6, 0x240ca1cc, 0x2de92c6f, 0x4a7484aa, 0x5cb0a9dc, 0x76f988da,
    0x983e5152, 0xa831c66d, 0xb00327c8, 0xbf597fc7, 0xc6e00bf3, 0xd5a79147,
    0x06ca6351, 0x14292967, 0x27b70a85, 0x2e1b2138, 0x4d2c6dfc, 0x53380d13,
    0x650a7354, 0x766a0abb, 0x81c2c92e, 0x92722c85, 0xa2bfe8a1, 0xa81a664b,
    0xc24b8b70, 0xc76c51a3, 0xd192e819, 0xd6990624, 0xf40e3585, 0x106aa070,
    0x19a4c116, 0x1e376c08, 0x2748774c, 0x34b0bcb5, 0x391c0cb3, 0x4ed8aa4a,
    0x5b9cca4f, 0x682e6ff3, 0x748f82ee, 0x78a5636f, 0x84c87814, 0x8cc70208,
    0x90befffa, 0xa4506ceb, 0xbef9a3f7, 0xc67178f2]

/-- The bits of a word moved right in a circle. -/
def rotr (x n : UInt32) : UInt32 :=
  x >>> n ||| x <<< (32 - n)

/-- One round, with its constant and its word of the schedule. -/
def State.round (s : State) (constant word : UInt32) : State :=
  let mixE := rotr s.e 6 ^^^ rotr s.e 11 ^^^ rotr s.e 25
  let choice := s.e &&& s.f ^^^ ~~~s.e &&& s.g
  let t1 := s.h + mixE + choice + constant + word
  let mixA := rotr s.a 2 ^^^ rotr s.a 13 ^^^ rotr s.a 22
  let majority := s.a &&& s.b ^^^ s.a &&& s.c ^^^ s.b &&& s.c
  ⟨t1 + (mixA + majority), s.a, s.b, s.c, s.d + t1, s.e, s.f, s.g⟩

/-- The words of two states added up. -/
def State.add (s t : State) : State :=
  ⟨s.a + t.a, s.b + t.b, s.c + t.c, s.d + t.d, s.e + t.e, s.f + t.f, s.g + t.g, s.h + t.h⟩

/-- The sixteen words of a block at a position, high byte first. -/
def blockWords (data : Bytes) (position : Nat) : Array UInt32 :=
  Array.ofFn fun i : Fin 16 =>
    let byte (j : Nat) := (data.getD (position + 4 * i + j) 0).toUInt32
    byte 0 <<< 24 ||| byte 1 <<< 16 ||| byte 2 <<< 8 ||| byte 3

/-- The words of a schedule with one more, computed from four before it. -/
def extend (words : Array UInt32) : Array UInt32 :=
  let back (n : Nat) := words.getD (words.size - n) 0
  let s0 := rotr (back 15) 7 ^^^ rotr (back 15) 18 ^^^ back 15 >>> 3
  let s1 := rotr (back 2) 17 ^^^ rotr (back 2) 19 ^^^ back 2 >>> 10
  words.push (back 16 + s0 + back 7 + s1)

/-- The 64 words of the schedule of a block. -/
def schedule (data : Bytes) (position : Nat) : Array UInt32 :=
  Nat.repeat extend 48 (blockWords data position)

/-- A block mixed into a state. -/
def State.mix (s : State) (data : Bytes) (position : Nat) : State :=
  s.add <| (constants.zip (schedule data position).toList).foldl
    (fun s (constant, word) => s.round constant word) s

/-- A message with a one bit, zeros and its length in bits after it, up to a whole block. -/
def padded (data : Bytes) : Bytes :=
  data.push 0x80 ++ Bytes.zeros ((119 - data.size % 64) % 64) ++ Bytes.ofNatBE 8 (8 * data.size)

/-- The bytes of a state, high byte of each word first. -/
def State.toVector (s : State) : Vector UInt8 32 :=
  let word (w : UInt32) := Bytes.ofNatBE 4 w.toNat
  ⟨word s.a ++ word s.b ++ word s.c ++ word s.d ++ word s.e ++ word s.f ++ word s.g ++ word s.h,
    by simp [word]⟩

/-- The digest of a message. -/
def digest (data : Bytes) : Vector UInt8 32 :=
  let message := padded data
  let mixBlock (s : State) (block : Nat) := s.mix message (64 * block)
  ((List.range (message.size / 64)).foldl mixBlock State.initial).toVector

end PortablePdb.Sha256
