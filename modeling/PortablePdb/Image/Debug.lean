import PortablePdb.Guid
import PortablePdb.Image.Basic
import PortablePdb.Text.Utf8

namespace PortablePdb

/-- An entry of the debug directory. -/
structure DebugEntry where
  characteristics : UInt32 := 0
  stamp : UInt32
  majorVersion : UInt16 := 0
  minorVersion : UInt16 := 0
  type : UInt32
  size : UInt32
  address : UInt32 := 0
  pointer : UInt32 := 0
  deriving DecidableEq, Repr

/-- The record that names a debug container and its id. -/
structure CodeView where
  guid : Guid
  age : UInt32
  path : String
  stamp : UInt32
  deriving DecidableEq, Repr

namespace DebugEntry

/-- The number of bytes of an entry. -/
def encodedSize : Nat := 28

/-- The type of entries that lead to the record of a debug container. -/
def codeViewType : UInt32 := 2

/-- Reads an entry. -/
def read : Reader DebugEntry := do
  return ⟨← Reader.le32, ← Reader.le32, ← Reader.le16, ← Reader.le16, ← Reader.le32,
    ← Reader.le32, ← Reader.le32, ← Reader.le32⟩

/-- Reads a number of entries. -/
def readMany : (count : Nat) → Reader (List DebugEntry)
  | 0 => return []
  | count + 1 => return (← read) :: (← readMany count)

end DebugEntry

namespace CodeView

/-- The word that a record starts with. -/
def signature : UInt32 := 0x53445352

/-- Reads a record, unless it is of another format. Its path goes up to a zero byte or to the end of
the record. -/
def read? (stamp : UInt32) : Reader (Option CodeView) := do
  if (← Reader.le32) ≠ signature then return none
  let guid ← Reader.guid
  let age ← Reader.le32
  let path ← Reader.bytes (← Reader.remaining)
  return some { guid, age, path := Text.Utf8.lossy (path.takeWhile (· != 0)), stamp }

end CodeView

namespace Image

/-- The entries of the debug directory; an image without one has none. -/
def debugEntries (image : Image) : Except Error (List DebugEntry) := do
  match image.usableDirectory? debugDirectory with
  | none => return []
  | some directory =>
    let offset ← image.addressToOffset directory.address.toNat
    let data ← image.slice offset directory.size.toNat
    (DebugEntry.readMany (data.size / DebugEntry.encodedSize)).eval data

/-- The record of the debug container that an entry leads to, if it leads to one. The pointer of the
entry counts before its address. -/
def codeViewOf? (image : Image) (entry : DebugEntry) : Except Error (Option CodeView) := do
  if entry.type ≠ DebugEntry.codeViewType || entry.size < 24 then return none
  let offset ← if entry.pointer ≠ 0 then pure entry.pointer.toNat
    else image.addressToOffset entry.address.toNat
  (CodeView.read? entry.stamp).eval (← image.slice offset entry.size.toNat)

/-- The first record among the entries. -/
def firstCodeView? (image : Image) : List DebugEntry → Except Error (Option CodeView)
  | [] => return none
  | entry :: entries => do
    match ← image.codeViewOf? entry with
    | some codeView => return some codeView
    | none => image.firstCodeView? entries

/-- The record of the debug container of an image. -/
def codeView? (image : Image) : Except Error (Option CodeView) := do
  image.firstCodeView? (← image.debugEntries)

end Image

end PortablePdb
