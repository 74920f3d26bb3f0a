import PortablePdb.Heap.Blobs
import PortablePdb.Heap.Guids
import PortablePdb.Heap.Strings

namespace PortablePdb

/-- The heaps of a container under construction. -/
structure HeapBuilders where
  strings : StringHeap.Builder := .empty
  blobs : BlobHeap.Builder := .empty
  guids : GuidHeap.Builder := .empty
  deriving Inhabited

namespace HeapBuilders

/-- Runs an action on the heap of strings. -/
def onStrings {α : Type} (action : EStateM Error StringHeap.Builder α) :
    EStateM Error HeapBuilders α :=
  fun ⟨strings, blobs, guids⟩ =>
    match action.run strings with
    | .ok value strings => .ok value ⟨strings, blobs, guids⟩
    | .error error strings => .error error ⟨strings, blobs, guids⟩

/-- Runs an action on the heap of blobs. -/
def onBlobs {α : Type} (action : EStateM Error BlobHeap.Builder α) : EStateM Error HeapBuilders α :=
  fun ⟨strings, blobs, guids⟩ =>
    match action.run blobs with
    | .ok value blobs => .ok value ⟨strings, blobs, guids⟩
    | .error error blobs => .error error ⟨strings, blobs, guids⟩

/-- Runs an action on the heap of identifiers. -/
def onGuids {α : Type} (action : EStateM Error GuidHeap.Builder α) : EStateM Error HeapBuilders α :=
  fun ⟨strings, blobs, guids⟩ =>
    match action.run guids with
    | .ok value guids => .ok value ⟨strings, blobs, guids⟩
    | .error error guids => .error error ⟨strings, blobs, guids⟩

/-- Adds a string. -/
def addString (value : String) : EStateM Error HeapBuilders UInt32 :=
  onStrings (StringHeap.Builder.add value)

/-- Adds a blob. -/
def addBlob (value : Bytes) : EStateM Error HeapBuilders UInt32 :=
  onBlobs (BlobHeap.Builder.add value)

/-- Adds an identifier. -/
def addGuid (value : Guid) : EStateM Error HeapBuilders UInt32 :=
  onGuids (GuidHeap.Builder.add value)

end HeapBuilders

end PortablePdb
