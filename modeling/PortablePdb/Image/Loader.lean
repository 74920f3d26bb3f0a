import PortablePdb.Image.Headers

namespace PortablePdb.Image

/-- The next multiple of a page of 4096 bytes. -/
def roundToPage (size : Nat) : Nat :=
  (size + 0xFFF) / 0x1000 * 0x1000

/-- The number of bytes of a section that a loader reads. -/
def Section.loadedSize (alignment : Nat) (s : Section) : Nat :=
  let rawEnd := s.rawPointer.toNat + s.rawSize.toNat
  let start := s.rawPointer.toNat / 0x200 * 0x200
  let aligned := (rawEnd + alignment - 1) / alignment * alignment - start
  let size := min aligned (roundToPage s.rawSize.toNat)
  if s.rawSize = 0 then 0
  else if s.virtualSize = 0 then size
  else min size (roundToPage s.virtualSize.toNat)

/-- Whether a number is a power of two. -/
def isPowerOfTwo (n : Nat) : Bool :=
  n ≠ 0 && 1 <<< n.log2 == n

/-- What a loader knows of an image. -/
structure Loader where
  data : Bytes
  sections : List Section
  machine : UInt16
  optional : OptionalHeader
  deriving DecidableEq, Repr

namespace Loader

/-- The place in the file of an address. -/
def offset? (loader : Loader) (address : Nat) : Option Nat := do
  let alignment := loader.optional.fileAlignment.toNat
  if !isPowerOfTwo alignment then none
  let s ← loader.sections.find? fun s =>
    s.virtualAddress.toNat ≤ address && address < s.virtualAddress.toNat + s.loadedSize alignment
  return address - s.virtualAddress.toNat + s.rawPointer.toNat

/-- The place in the file of an address that counts from zero and not from the base of the image. -/
def absoluteOffset? (loader : Loader) (address : Nat) : Option Nat :=
  if address < loader.optional.imageBase.toNat then none
  else loader.offset? (address - loader.optional.imageBase.toNat)

/-- The number of bytes of an address in the memory of the machine. -/
def pointerSize (loader : Loader) : Nat :=
  if loader.optional.is64Bit then 8 else 4

/-- The address in the memory of the machine that stands at a position. -/
def pointer? (loader : Loader) (position : Nat) : Option Nat :=
  if loader.optional.is64Bit then (·.toNat) <$> word64? loader.data position
  else (·.toNat) <$> word32? loader.data position

/-- The pointers at a position and behind it up to a zero, of which there have to be fewer than
`fuel`. -/
def pointersFrom? (loader : Loader) : (fuel : Nat) → (position : Nat) → Option (List Nat)
  | 0, _ => none
  | fuel + 1, position => do
    let pointer ← loader.pointer? position
    if pointer = 0 then return []
    return pointer :: (← pointersFrom? loader fuel (position + loader.pointerSize))

/-- The pointers at a position and behind it up to a zero; none if the file ends before. -/
def pointers? (loader : Loader) (position : Nat) : Option (List Nat) :=
  loader.pointersFrom? (loader.data.size + 1) position

/-- Whether the directory with a number is missing, or leads to a place in the file where the test
holds of the place and the size. -/
def allows (loader : Loader) (number : Nat) (test : (start size : Nat) → Bool) : Bool :=
  match loader.optional.directory? number with
  | none => true
  | some directory =>
    match loader.offset? directory.address.toNat with
    | none => false
    | some start => test start directory.size.toNat

end Loader

end PortablePdb.Image
