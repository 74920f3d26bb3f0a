import PortablePdb.Heap.Blobs
import PortablePdb.Text.Split
import PortablePdb.Text.Utf8

namespace PortablePdb.DocumentName

/-- The character between the parts of a path. -/
def separator : Char := '/'

/-- The positions of the parts of a path, each added to the heap of blobs. -/
def encodeParts : List (List Char) → EStateM Error BlobHeap.Builder (List UInt8)
  | [] => return []
  | part :: parts => do
    let index ← BlobHeap.Builder.add (Bytes.ofText (String.ofList part))
    match Compressed.encodeUInt index.toNat with
    | .ok form => return form.toList ++ (← encodeParts parts)
    | .error error => throw error

/-- The blob of a path: the separator, and the positions of the parts in the heap of blobs, so that
paths share their parts. -/
def encode (path : String) : EStateM Error BlobHeap.Builder Bytes := do
  let parts ← encodeParts (Text.split separator path.toList)
  return (separator.toNat.toUInt8 :: parts).toArray

/-- Reads the position of a part, and the part from the heap. -/
def readPart (blobs : BlobHeap) : Reader (List Char) := do
  let blob ← Reader.lift (blobs.blobAt (← Compressed.readUInt))
  return (Text.Utf8.lossy blob).toList

/-- Reads a path. A separator of zero stands for none. -/
def read (blobs : BlobHeap) : Reader String := do
  let separator ← Reader.u8
  let parts ← Reader.items (readPart blobs)
  if separator = 0 then return String.ofList parts.flatten
  else return String.ofList (Text.join (Char.ofNat separator.toNat) parts)

/-- The path that a blob holds. -/
def decode (blobs : BlobHeap) (blob : Bytes) : Except Error String :=
  (read blobs).eval blob

end PortablePdb.DocumentName
