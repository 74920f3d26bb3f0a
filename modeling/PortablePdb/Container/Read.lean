import PortablePdb.Container.Basic
import PortablePdb.Container.Encode
import PortablePdb.Document.Name
import PortablePdb.Heap.Guids
import PortablePdb.Heap.Strings
import PortablePdb.Imports.Blob
import PortablePdb.Metadata.TablesStream
import PortablePdb.SequencePoints.Blob

namespace PortablePdb.Container

/-- The heaps that rows refer to. -/
structure Heaps where
  strings : StringHeap
  blobs : BlobHeap
  guids : GuidHeap

/-- Reads the row counts of the ids in a mask. -/
def readCounts (mask : UInt64) : (slots : List (Fin 64)) → RowCounts → Reader RowCounts
  | [], rows => return rows
  | ⟨slot, hslot⟩ :: slots, rows => do
    if mask.toNat.testBit slot then
      readCounts mask slots (rows.set slot (← Reader.le32) hslot)
    else readCounts mask slots rows

/-- The parts of the debug stream. -/
structure Head where
  id : ContentId
  entryPoint : Token
  typeSystemRows : RowCounts

/-- Reads the debug stream. -/
def readHead : Reader Head := do
  if (← Reader.remaining) < ContentId.size + 12 then throw .outOfBounds
  return {
    id := ← ContentId.read
    entryPoint := ⟨← Reader.le32⟩
    typeSystemRows := ← readCounts (← Reader.le64) (List.finRange 64) RowCounts.none }

/-- The document of a row. -/
def documentOf (heaps : Heaps) (row : DocumentRow) : Except Error Document := do
  let name ← heaps.blobs.blobAt row.name.toNat
  return {
    row := row.rid
    name := ← DocumentName.decode heaps.blobs name
    hashAlgorithm := ← heaps.guids.guidAt row.hashAlgorithm.toNat
    hash := ← heaps.blobs.blobAt row.hash.toNat
    language := ← heaps.guids.guidAt row.language.toNat }

/-- The method of a row. Where the row tells no document, the blob of the points does. -/
def methodOf (heaps : Heaps) (row : MethodDebugRow) : Except Error DebugMethod := do
  let points ←
    if row.sequencePoints = 0 then pure none
    else
      let blob ← heaps.blobs.blobAt row.sequencePoints.toNat
      some <$> SequencePoints.decode blob (row.document == 0)
  return ⟨.methodDef row.rid, row.document, points⟩

/-- The variable of a row. -/
def variableOf (heaps : Heaps) (row : LocalVariableRow) : Except Error LocalVariable := do
  return ⟨row.index, ← heaps.strings.stringAt row.name.toNat, row.attributes⟩

/-- The scope of a row. Its rows run up to those of the next scope, and those of the last one
up to the end. -/
def scopeOf (heaps : Heaps) (rows : Array LocalVariableRow) (next : Option LocalScopeRow)
    (row : LocalScopeRow) : Except Error LocalScope := do
  let first := row.variableList.toNat
  let stop := (next.map (·.variableList.toNat)).getD (rows.size + 1)
  let own := rows.extract (first - 1) (first - 1 + (stop - first))
  return {
    row := row.rid
    method := .methodDef row.method
    importScope := row.importScope
    startOffset := row.startOffset
    length := row.length
    slots := ← own.toList.mapM (variableOf heaps) }

/-- The scope of imports of a row. -/
def importScopeOf (heaps : Heaps) (row : ImportScopeRow) : Except Error ImportScope := do
  let imports ←
    if row.imports = 0 then pure []
    else Imports.decode heaps.blobs (← heaps.blobs.blobAt row.imports.toNat)
  return ⟨row.rid, row.parent, imports⟩

/-- The state machine of a row. -/
def machineOf (row : StateMachineRow) : MachineMethods :=
  ⟨.methodDef row.moveNextMethod, .methodDef row.kickoffMethod⟩

/-- The record of a row. -/
def infoOfRow (heaps : Heaps) (row : CustomInfoRow) : Except Error InfoRecord := do
  let kind := CustomKind.ofGuid (← heaps.guids.guidAt row.kind.toNat)
  let value ← CustomInfo.decode kind (← heaps.blobs.blobAt row.value.toNat)
  return ⟨row.rid, row.parent.token, kind, value⟩

/-- Gives a document the source text that a record embeds. Documents are in the order of their rows,
and the last text of a document counts. -/
def addSource (documents : Array Document) (row : CustomInfoRow) (record : InfoRecord) :
    Array Document :=
  match record.value with
  | .embeddedSource text _ =>
    if row.parent.table = .document && row.parent.row ≠ 0 then
      documents.modify (row.parent.row.toNat - 1) fun document =>
        { document with source := some text }
    else documents
  | _ => documents

/-- The container in some bytes. -/
def ofBytes (data : Bytes) : Except Error Container := do
  let root ← Root.read data
  let some head := root.streamData? data streamName | reject .noPdbStream
  let some tables := (root.streamData? data "#~").orElse fun () => root.streamData? data "#-"
    | reject .pdbWithoutTables
  let strings ← StringHeap.ofBytes ((root.streamData? data "#Strings").getD #[0])
  let blobs ← BlobHeap.ofBytes ((root.streamData? data "#Blob").getD #[0])
  let guids ← GuidHeap.ofBytes ((root.streamData? data "#GUID").getD #[])
  let heaps : Heaps := ⟨strings, blobs, guids⟩
  let ⟨id, entryPoint, typeSystemRows⟩ ← readHead.eval head
  let stream ← TablesStream.read tables (some typeSystemRows)
  let documents ← (stream.rows DocumentRow).mapM (documentOf heaps)
  let methods ← (stream.rows MethodDebugRow).mapM (methodOf heaps)
  let variableRows := stream.rows LocalVariableRow
  let scopeRows := stream.rows LocalScopeRow
  let localScopes ← scopeRows.zipIdx.mapM fun (row, index) =>
    scopeOf heaps variableRows scopeRows[index + 1]? row
  let importScopes ← (stream.rows ImportScopeRow).mapM (importScopeOf heaps)
  let machines := (stream.rows StateMachineRow).map machineOf
  let infoRows := stream.rows CustomInfoRow
  let info ← infoRows.mapM (infoOfRow heaps)
  let documents := (infoRows.zip info).foldl (fun documents (row, record) =>
    addSource documents row record) documents
  return {
    id, entryPoint, typeSystemRows, tables := stream.summary
    documents, methods, localScopes, importScopes, machines, info }

end PortablePdb.Container
