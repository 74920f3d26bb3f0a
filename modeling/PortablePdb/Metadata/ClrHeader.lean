import PortablePdb.Bytes.Reader

namespace PortablePdb

/-- The header of the managed part of an image. -/
structure ClrHeader where
  size : UInt32
  majorVersion : UInt16
  minorVersion : UInt16
  metadataAddress : UInt32
  metadataSize : UInt32
  flags : UInt32
  rawEntryPoint : UInt32
  deriving DecidableEq, Repr

namespace ClrHeader

/-- The number of bytes of a header. -/
def encodedSize : Nat := 72

/-- Reads the fields of a header. -/
def readFields : Reader ClrHeader := do
  let size ← Reader.le32
  if size ≠ 72 then reject (.clrHeaderSize size)
  let majorVersion ← Reader.le16
  let minorVersion ← Reader.le16
  let metadataAddress ← Reader.le32
  if metadataAddress = 0 then reject .zeroMetadataAddress
  let metadataSize ← Reader.le32
  if metadataSize = 0 then reject .zeroMetadataSize
  let flags ← Reader.le32
  let rawEntryPoint ← Reader.le32
  return { size, majorVersion, minorVersion, metadataAddress, metadataSize, flags, rawEntryPoint }

/-- The header at the start of some bytes, which have to hold all of it. -/
def read (data : Bytes) : Except Error ClrHeader := do
  if data.size < encodedSize then throw .outOfBounds
  readFields.eval data

/-- Whether the image holds managed code only. -/
def isManagedOnly (header : ClrHeader) : Bool :=
  header.flags &&& 0x1 != 0

/-- Whether the entry point is an address of native code. -/
def hasNativeEntry (header : ClrHeader) : Bool :=
  header.flags &&& 0x10 != 0

/-- The method that starts the program, if there is one. -/
def entryPoint? (header : ClrHeader) : Option Token :=
  let token : Token := ⟨header.rawEntryPoint⟩
  if !header.hasNativeEntry && token.isTable .methodDef then some token else none

end ClrHeader

end PortablePdb
