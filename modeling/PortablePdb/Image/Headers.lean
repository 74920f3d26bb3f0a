import PortablePdb.Image.Words
import PortablePdb.Text.Numeral

namespace PortablePdb.Image

/-- A section: a range of addresses, and the range of the file that is loaded there. -/
structure Section where
  virtualSize : UInt32
  virtualAddress : UInt32
  rawSize : UInt32
  rawPointer : UInt32
  deriving DecidableEq, Repr

/-- A directory: the address and the size of some table of the image. -/
structure Directory where
  address : UInt32
  size : UInt32
  deriving DecidableEq, Repr

/-- What the optional header tells. -/
structure OptionalHeader where
  is64Bit : Bool
  imageBase : UInt64
  fileAlignment : UInt32
  directories : List Directory
  deriving DecidableEq, Repr

/-- The headers of an image, the position of the file header, and the machine that it names. -/
structure Headers where
  position : Nat
  machine : UInt16
  optional : Option OptionalHeader
  sections : List Section
  deriving DecidableEq, Repr

/-- The position of the file header, which the first header tells. -/
def fileHeader? (data : Bytes) : Option Nat := do
  if (← word16? data 0) ≠ 0x5A4D then none
  let position := (← word32? data 0x3C).toNat
  if position < 0x40 then none
  if (← word32? data position) ≠ 0x4550 then none
  if data.size < position + 24 then none
  return position

/-- The number of bytes of a section in the table. -/
def sectionSize : Nat := 40

/-- Whether a character is a digit in base 64. -/
def isBase64Digit (c : Char) : Bool :=
  c.isAlphanum || c == '+' || c == '/'

/-- The number of bytes for the name of a section. -/
def sectionNameSize : Nat := 8

/-- Whether the name of a section has a form that can be read. A name with a slash in front stands
for a longer one, by a decimal numeral, or after a second slash by digits in base 64. -/
def isSectionName (name : Bytes) : Bool :=
  match (name.toList.takeWhile (· != 0)).map Char.ofUInt8 with
  | '/' :: '/' :: digits => digits.all isBase64Digit
  | '/' :: numeral => (Text.Numeral.read? 10 (Nat.pow 10 sectionNameSize) numeral).isSome
  | _ => true

/-- The section at a position of the table. -/
def section? (data : Bytes) (position : Nat) : Option Section := do
  if data.size < position + sectionSize then none
  if !isSectionName (data.extract position (position + sectionNameSize)) then none
  return ⟨← word32? data (position + 8), ← word32? data (position + 12),
    ← word32? data (position + 16), ← word32? data (position + 20)⟩

/-- The directory at a position. -/
def directory? (data : Bytes) (position : Nat) : Option Directory := do
  return ⟨← word32? data position, ← word32? data (position + 4)⟩

/-- The most directories that a header may have. -/
def maxDirectories : Nat := 16

/-- The optional header at a position. The first word tells whether it is the one of 32 or of 64
bits. -/
def optionalHeader? (data : Bytes) (position : Nat) : Option OptionalHeader := do
  let magic ← word16? data position
  let is64Bit ← if magic = 0x10B then some false else if magic = 0x20B then some true else none
  let size := if is64Bit then 112 else 96
  let imageBase ←
    if is64Bit then word64? data (position + 24)
    else (·.toUInt64) <$> word32? data (position + 28)
  let fileAlignment ← word32? data (position + 36)
  let count := (← word32? data (position + size - 4)).toNat
  if maxDirectories < count then none
  let directories ← (List.range count).mapM fun i => directory? data (position + size + 8 * i)
  return { is64Bit, imageBase, fileAlignment, directories }

/-- The headers of the image in a file. -/
def headers? (data : Bytes) : Option Headers := do
  let position ← fileHeader? data
  let machine ← word16? data (position + 4)
  let count := (← word16? data (position + 6)).toNat
  let optionalSize := (← word16? data (position + 20)).toNat
  let optional ←
    if optionalSize = 0 then some none else some <$> optionalHeader? data (position + 24)
  if data.size / sectionSize < count then none
  let table := position + 24 + optionalSize
  let sections ← (List.range count).mapM fun i => section? data (table + sectionSize * i)
  return { position, machine, optional, sections }

/-- The number of the directory of imported functions. -/
def importDirectory : Nat := 1

/-- The number of the directory of resources. -/
def resourceDirectory : Nat := 2

/-- The number of the directory of exception handlers. -/
def exceptionDirectory : Nat := 3

/-- The number of the directory of certificates. Its address is a position in the file. -/
def certificateDirectory : Nat := 4

/-- The number of the directory of places to change when the image moves. -/
def relocationDirectory : Nat := 5

/-- The number of the directory of debug data. -/
def debugDirectory : Nat := 6

/-- The number of the directory of data that each thread has for itself. -/
def threadDirectory : Nat := 9

/-- The number of the directory of settings for the loader. -/
def loadDirectory : Nat := 10

/-- The number of the directory of the header of the managed part. -/
def clrDirectory : Nat := 14

/-- The directory with a number; one of zeros is as good as missing. -/
def OptionalHeader.directory? (header : OptionalHeader) (number : Nat) : Option Directory :=
  header.directories[number]?.filter fun directory => directory.address ≠ 0 || directory.size ≠ 0

end PortablePdb.Image
