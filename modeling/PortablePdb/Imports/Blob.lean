import PortablePdb.Heap.Blobs
import PortablePdb.Imports.Basic
import PortablePdb.Metadata.CodedIndex
import PortablePdb.Text.Utf8

namespace PortablePdb.Imports

/-- The blob of imports of namespaces. The names are added to the heap of blobs. -/
def encode : List String → EStateM Error BlobHeap.Builder Bytes
  | [] => return #[]
  | name :: names => do
    let index ← BlobHeap.Builder.add (Bytes.ofText name)
    match Compressed.encodeUInt index.toNat with
    | .ok form => return #[1] ++ form ++ (← encode names)
    | .error error => throw error

/-- Reads the position of a name, and the name from the heap. -/
def readName (blobs : BlobHeap) : Reader String := do
  let blob ← Reader.lift (blobs.blobAt (← Compressed.readUInt))
  return Text.Utf8.lossy blob

/-- Reads the row of a referenced assembly. -/
def readAssembly : Reader Token := do
  return .ofParts .assemblyRef (← Compressed.readUInt).toUInt32

/-- Reads a reference to a type. -/
def readType : Reader Token := do
  let index ← Reader.lift (CodedIndex.decode .typeDefOrRef (← Compressed.readUInt).toUInt32)
  return index.token

/-- Reads an import. -/
def readImport (blobs : BlobHeap) : Reader Import := do
  match ← Compressed.readUInt with
  | 1 => return .importNamespace (← readName blobs)
  | 2 => return .importAssemblyNamespace (← readAssembly) (← readName blobs)
  | 3 => return .importType (← readType)
  | 4 => return .importXmlNamespace (← readName blobs) (← readName blobs)
  | 5 => return .importAssemblyReferenceAlias (← readName blobs)
  | 6 => return .defineAssemblyAlias (← readName blobs) (← readAssembly)
  | 7 => return .defineNamespaceAlias (← readName blobs) (← readName blobs)
  | 8 => return .defineAssemblyNamespaceAlias (← readName blobs) (← readAssembly) (← readName blobs)
  | 9 => return .defineTypeAlias (← readName blobs) (← readType)
  | kind => reject (.importKind kind)

/-- The imports that a blob holds. -/
def decode (blobs : BlobHeap) (blob : Bytes) : Except Error (List Import) :=
  (Reader.items (readImport blobs)).eval blob

end PortablePdb.Imports
