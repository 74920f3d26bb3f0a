import PortablePdb.Bytes.Reader

namespace PortablePdb

/-- The place and the name of a stream. -/
structure StreamHeader where
  offset : UInt32
  size : UInt32
  name : String
  deriving DecidableEq, Repr

namespace StreamHeader

/-- The streams that metadata may have. -/
def validNames : List String :=
  ["#Pdb", "#~", "#-", "#Strings", "#US", "#GUID", "#Blob"]

/-- The longest name, with its end. -/
def maxName : Nat := 32

/-- The characters of a name, one for each byte, up to the zero that ends it. -/
def nameChars (window : List UInt8) : List Char :=
  (window.takeWhile (· != 0)).map fun b => Char.ofNat b.toNat

/-- The header at a position of the metadata. -/
def readAt (data : Bytes) (position : Nat) : Except Error StreamHeader := do
  if data.size < position + 9 then throw .outOfBounds
  let window := (data.extract (position + 8) (position + 8 + maxName)).toList
  let name := String.ofList (nameChars window)
  if !window.contains 0 then reject (.unterminatedStreamName name)
  if !validNames.contains name then reject (.unknownStreamName name)
  return ⟨← Reader.le32.evalAt data position, ← Reader.le32.evalAt data (position + 4), name⟩

/-- The number of bytes of a header. -/
def encodedSize (header : StreamHeader) : Nat :=
  8 + Bytes.align4 (header.name.utf8ByteSize + 1)

/-- The bytes of a header. -/
def encode (header : StreamHeader) : Bytes :=
  Bytes.pad4 <|
    (Bytes.le32 header.offset ++ Bytes.le32 header.size ++ Bytes.ofText header.name).push 0

end StreamHeader

end PortablePdb
