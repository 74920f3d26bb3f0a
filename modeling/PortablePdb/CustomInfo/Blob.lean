import PortablePdb.Bytes.Compressed
import PortablePdb.CustomInfo.Basic
import PortablePdb.CustomInfo.Stepping
import PortablePdb.Deflate.Inflate
import PortablePdb.Text.Utf8

namespace PortablePdb

/-- The value of a record of custom debug information. -/
inductive CustomInfo where
  | embeddedSource (content : String) (isCompressed : Bool)
  | hoistedLocalScopes (scopes : List HoistedScope)
  | asyncStepping (stepping : AsyncStepping)
  | sourceLink (document : String)
  | compilationMetadata (metadata : String)
  | compilationOptions (options : String)
  | unknown (data : Bytes)
  deriving DecidableEq, Repr

namespace CustomInfo

/-- The blob of an embedded source: its size, and its bytes as a compressed stream. -/
def encodeSource (text : String) (compress : Bytes → Bytes := Deflate.deflate) :
    Except Error Bytes :=
  let source := Bytes.ofText text
  if source.size < 0x80000000 then
    .ok (Bytes.le32 source.size.toUInt32 ++ compress source)
  else reject (.sourceSize source.size)

/-- The blob of hoisted locals, in the order of their slots. -/
def encodeHoisted (scopes : List HoistedScope) : Bytes :=
  scopes.foldl (fun out scope => out ++ Bytes.le32 scope.start ++ Bytes.le32 scope.length) #[]

/-- The forms of awaits in a method; each of them has to resume in that method. -/
def encodeAwaits (method : Token) : List Await → Except Error Bytes
  | [] => .ok #[]
  | await :: awaits => do
    if !await.resumeMethod.isNull && await.resumeMethod ≠ method then
      reject (.resumeMethod await.yieldOffset await.resumeMethod method)
    let row ← Compressed.encodeUInt method.row.toNat
    return Bytes.le32 await.yieldOffset ++ Bytes.le32 await.resumeOffset ++ row ++
      (← encodeAwaits method awaits)

/-- The blob of the stepping of a method. The handler is stored plus one, and zero is none. -/
def encodeStepping (stepping : AsyncStepping) (method : Token) : Except Error Bytes := do
  if !method.isTable .methodDef then reject (.steppingParent method)
  let handler ← match stepping.catchHandler with
    | none => pure 0
    | some offset =>
      if offset = 0xFFFFFFFF then reject (.catchHandler offset) else pure (offset + 1)
  return Bytes.le32 handler ++ (← encodeAwaits method stepping.awaits)

/-- All bytes up to the end. -/
def readRest : Reader Bytes := do
  Reader.bytes (← Reader.remaining)

/-- Reads an embedded source. A size of zero means that the bytes are not compressed. -/
def readSource : Reader CustomInfo := do
  let size := (← Reader.le32).toInt32.toInt
  if size < 0 then reject (.embeddedLength size)
  let payload ← readRest
  let data ← if size = 0 then pure payload else Reader.lift (Deflate.inflate payload size.toNat)
  match data.toText? with
  | some text => return .embeddedSource text (size ≠ 0)
  | none => reject .embeddedText

/-- Reads a hoisted local. -/
def readHoisted : Reader HoistedScope := do
  return ⟨← Reader.le32, ← Reader.le32⟩

/-- Reads an await. -/
def readAwait : Reader Await := do
  return ⟨← Reader.le32, ← Reader.le32, .methodDef (← Compressed.readUInt).toUInt32⟩

/-- Reads the stepping of a method. -/
def readStepping : Reader AsyncStepping := do
  let handler ← Reader.le32
  let awaits ← Reader.items readAwait
  return ⟨if handler = 0 then none else some (handler - 1), awaits⟩

/-- Reads a text up to the end. -/
def readText : Reader String := do
  return Text.Utf8.lossy (← readRest)

/-- Reads a value of a kind. -/
def read : CustomKind → Reader CustomInfo
  | .embeddedSource => readSource
  | .hoistedLocalScopes => return .hoistedLocalScopes (← Reader.items readHoisted)
  | .asyncStepping => return .asyncStepping (← readStepping)
  | .sourceLink => return .sourceLink (← readText)
  | .compilationMetadata => return .compilationMetadata (← readText)
  | .compilationOptions => return .compilationOptions (← readText)
  | .unknown _ => return .unknown (← readRest)

/-- The value that a blob of a kind holds. -/
def decode (kind : CustomKind) (blob : Bytes) : Except Error CustomInfo :=
  (read kind).eval blob

end CustomInfo

end PortablePdb
