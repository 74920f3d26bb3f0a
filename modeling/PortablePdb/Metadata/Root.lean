import PortablePdb.Metadata.StreamHeader
import PortablePdb.Text.Utf8

namespace PortablePdb

/-- The root of metadata. -/
structure Root where
  majorVersion : UInt16
  minorVersion : UInt16
  reserved : UInt32
  /-- The number of bytes that the version takes with its padding. -/
  versionLength : UInt32
  version : String
  flags : UInt16
  streams : List StreamHeader
  deriving DecidableEq, Repr

namespace Root

/-- The first word of all metadata. -/
def signature : UInt32 := 0x424A5342

/-- Whether a stream ends within the data. -/
def checkRange (data : Bytes) (header : StreamHeader) : Except Error Unit := do
  let stop := header.offset.toNat + header.size.toNat
  if 0xFFFFFFFF < stop then reject (.streamOverflow header.offset header.size)
  if data.size < stop then throw .outOfBounds

/-- The headers from a position on, when others went before. -/
def readHeaders (data : Bytes) : (count position : Nat) → List StreamHeader →
    Except Error (List StreamHeader)
  | 0, _, before => .ok before
  | count + 1, position, before => do
    if data.size < position then throw .outOfBounds
    let header ← StreamHeader.readAt data position
    checkRange data header
    if before.any (·.name == header.name) then reject (.duplicateStream header.name)
    readHeaders data count (position + header.encodedSize) (before ++ [header])

/-- The root at the start of metadata. -/
def read (data : Bytes) : Except Error Root := do
  if data.size < 36 then throw .outOfBounds
  let found ← Reader.le32.evalAt data 0
  if found ≠ signature then reject (.rootSignature found)
  let length ← Reader.le32.evalAt data 12
  let versionEnd := 16 + length.toNat
  if data.size < versionEnd + 4 then throw .outOfBounds
  let version := (data.extract 16 versionEnd).toList.takeWhile (· != 0)
  let flags ← Reader.le16.evalAt data versionEnd
  let count ← Reader.le16.evalAt data (versionEnd + 2)
  if count = 0 || StreamHeader.validNames.length < count.toNat || data.size < count.toNat * 9 then
    reject (.streamCount count)
  let streams ← readHeaders data count.toNat (versionEnd + 4) []
  return {
    majorVersion := ← Reader.le16.evalAt data 4
    minorVersion := ← Reader.le16.evalAt data 6
    reserved := ← Reader.le32.evalAt data 8
    versionLength := length
    version := Text.Utf8.lossy version.toArray
    flags, streams }

/-- The header of the stream with a name. -/
def stream? (root : Root) (name : String) : Option StreamHeader :=
  root.streams.find? (·.name == name)

/-- The bytes of the stream with a name. -/
def streamData? (root : Root) (data : Bytes) (name : String) : Option Bytes := do
  let header ← root.stream? name
  let stop := header.offset.toNat + header.size.toNat
  if stop ≤ data.size then some (data.extract header.offset.toNat stop) else none

/-- The headers of streams that stand one after the other from a position on. -/
def headersFrom : (position : Nat) → List (String × Bytes) → Except Error (List StreamHeader)
  | _, [] => .ok []
  | position, (name, data) :: rest => do
    let size := Bytes.align4 data.size
    if 0xFFFFFFFF < position || 0xFFFFFFFF < size then reject .metadataSize
    return ⟨position.toUInt32, size.toUInt32, name⟩ :: (← headersFrom (position + size) rest)

/-- The number of bytes that the headers of streams take. -/
def directorySize (streams : List (String × Bytes)) : Nat :=
  streams.foldr (fun (name, _) size => 8 + Bytes.align4 (name.utf8ByteSize + 1) + size) 0

/-- Metadata of a version with streams. -/
def encode (version : String) (streams : List (String × Bytes)) : Except Error Bytes := do
  let versionSize := Bytes.align4 (version.utf8ByteSize + 1)
  let headers ← headersFrom (20 + versionSize + directorySize streams) streams
  if 0xFFFF < streams.length then reject (.streamTotal streams.length)
  if 0xFFFFFFFF < versionSize then reject .versionSize
  let versionForm := Bytes.pad4 ((Bytes.ofText version).push 0)
  let start := Bytes.le32 signature ++ Bytes.le16 1 ++ Bytes.le16 1 ++ Bytes.le32 0 ++
    Bytes.le32 versionSize.toUInt32 ++ versionForm ++ Bytes.le16 0 ++
    Bytes.le16 streams.length.toUInt16
  let directory := headers.foldl (fun out header => out ++ header.encode) start
  return streams.foldl (fun out (_, data) => out ++ data.pad4) directory

end Root

end PortablePdb
