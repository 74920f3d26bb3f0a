import Std.Data.HashMap
import PortablePdb.Bytes.Compressed

namespace PortablePdb

/-- The heap of blobs, for reading. Each blob stands after its length, whose position it is known
by. -/
structure BlobHeap where
  data : Bytes
  deriving DecidableEq, Repr

namespace BlobHeap

/-- A heap starts with the empty blob. -/
def ofBytes (data : Bytes) : Except Error BlobHeap :=
  if data[0]? = some 0 then .ok ⟨data⟩ else reject .blobHeap

/-- Reads a length and as many bytes. -/
def readBlob : Reader Bytes := do
  Reader.bytes (← Compressed.readUInt)

/-- The blob at a position. -/
def blobAt (heap : BlobHeap) (index : Nat) : Except Error Bytes :=
  readBlob.evalAt heap.data index

/-- Whether only zeros follow from a position on, as they do in the padding of a heap. -/
def isPaddingFrom (heap : BlobHeap) (position : Nat) : Bool :=
  heap.data.all (· == 0) position

/-- The blobs from a position on, each with its own position. Padding ends them, and so does a blob
that cannot be read, whose error comes last. -/
def entriesFrom (heap : BlobHeap) (position : Nat) : List (Except Error (Nat × Bytes)) :=
  if heap.data.size ≤ position then []
  else if heap.isPaddingFrom position then []
  else
    match readBlob.runAt heap.data position with
    | .ok value next =>
      .ok (position, value) :: if position < next then heap.entriesFrom next else []
    | .error error _ => [.error error]
  termination_by heap.data.size - position

/-- All blobs after the empty one. -/
def entries (heap : BlobHeap) : List (Except Error (Nat × Bytes)) :=
  heap.entriesFrom 1

/-- A heap under construction, with the position of each blob in it. -/
structure Builder where
  data : Bytes
  lookup : Std.HashMap Bytes UInt32

namespace Builder

/-- The heap with the empty blob only. -/
def empty : Builder :=
  ⟨#[0], ∅⟩

instance : Inhabited Builder := ⟨empty⟩

/-- Adds a blob unless the heap has it, and gives its position. -/
def add (value : Bytes) : EStateM Error Builder UInt32 := do
  if value.isEmpty then return 0
  if let some index := (← get).lookup[value]? then return index
  let position := (← get).data.size
  if 0xFFFFFFFF < position then reject .blobHeapSize
  if 0xFFFFFFFF < value.size then reject (.blobSize value.size)
  match Compressed.encodeUInt value.size with
  | .ok length =>
    modify fun ⟨data, lookup⟩ =>
      ⟨data ++ length ++ value, lookup.insert value position.toUInt32⟩
    return position.toUInt32
  | .error error => throw error

/-- The number of bytes so far. -/
def size (builder : Builder) : Nat :=
  builder.data.size

/-- Whether the heap has the empty blob only. -/
def isEmpty (builder : Builder) : Bool :=
  builder.data.size == 1

/-- The finished heap, padded to a multiple of four bytes. -/
def toBytes (builder : Builder) : Bytes :=
  builder.data.pad4

end Builder

end BlobHeap

end PortablePdb
