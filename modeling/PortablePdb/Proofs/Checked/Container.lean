import PortablePdb.Container.Read
import PortablePdb.Proofs.Checked.Contents
import PortablePdb.Proofs.Checked.Root
import PortablePdb.Proofs.Checked.Tables

namespace PortablePdb.Checked

open Container

/-- The id at the start of some bytes. -/
def contentId (data : Bytes) : Except Error ContentId := do
  if data.size < ContentId.size then throw .outOfBounds
  match Guid.ofBytes? (← slice data 0 16) with
  | some guid => return ⟨guid, ← readFrom le32 data 16⟩
  | none => throw .fault

/-- Reads the row counts of the ids in a mask. -/
def headCounts (mask : UInt64) : (slots : List (Fin 64)) → RowCounts → Reader RowCounts
  | [], rows => return rows
  | ⟨slot, hslot⟩ :: slots, rows => do
    let bit ← Reader.lift (shiftLeft .long 1 slot)
    if mask.toNat &&& bit ≠ 0 then headCounts mask slots (rows.set slot (← le32) hslot)
    else headCounts mask slots rows

/-- Reads the parts of the debug stream behind its id. -/
def readHeadAfter (id : ContentId) : Reader Head := do
  return ⟨id, ⟨← le32⟩, ← headCounts (← le64) (List.finRange 64) RowCounts.none⟩

/-- The debug stream. -/
def head (data : Bytes) : Except Error Head := do
  if data.size < ContentId.size + 12 then throw .outOfBounds
  let id ← contentId data
  (readHeadAfter id).evalAt data ContentId.size

/-- The document of a row. -/
def documentOf (heaps : Heaps) (row : DocumentRow) : Except Error Document := do
  let name ← blobAt heaps.blobs row.name.toNat
  return {
    row := row.rid
    name := ← documentName heaps.blobs name
    hashAlgorithm := ← guidAt heaps.guids row.hashAlgorithm.toNat
    hash := ← blobAt heaps.blobs row.hash.toNat
    language := ← guidAt heaps.guids row.language.toNat }

/-- The points of a row. -/
def pointsOf (heaps : Heaps) (row : MethodDebugRow) : Except Error (Option SequencePoints) := do
  if row.sequencePoints = 0 then return none
  let blob ← blobAt heaps.blobs row.sequencePoints.toNat
  return some (← sequencePoints blob (row.document == 0))

/-- The method of a row. -/
def methodOf (heaps : Heaps) (row : MethodDebugRow) : Except Error DebugMethod := do
  let points ← pointsOf heaps row
  return ⟨← token .methodDef row.rid, row.document, points⟩

/-- The variable of a row. -/
def variableOf (heaps : Heaps) (row : LocalVariableRow) : Except Error LocalVariable := do
  return ⟨row.index, ← stringAt heaps.strings row.name.toNat, row.attributes⟩

/-- The scope of a row, with the variables up to those of the next scope. -/
def scopeOf (heaps : Heaps) (rows : Array LocalVariableRow) (scopes : Array LocalScopeRow)
    (row : LocalScopeRow) (index : Nat) : Except Error LocalScope := do
  let next ← add .long index 1
  let last ← add .long rows.size 1
  let first := row.variableList.toNat
  let stop := (scopes[next]?.map (·.variableList.toNat)).getD last
  let own := rows.extract (first - 1) (first - 1 + (stop - first))
  let slots ← own.toList.mapM (variableOf heaps)
  return {
    row := row.rid
    method := ← token .methodDef row.method
    importScope := row.importScope
    startOffset := row.startOffset
    length := row.length
    slots }

/-- The scope of imports of a row. -/
def importScopeOf (heaps : Heaps) (row : ImportScopeRow) : Except Error ImportScope := do
  if row.imports = 0 then return ⟨row.rid, row.parent, []⟩
  let blob ← blobAt heaps.blobs row.imports.toNat
  return ⟨row.rid, row.parent, ← imports heaps.blobs blob⟩

/-- The state machine of a row. -/
def machineOf (row : StateMachineRow) : Except Error MachineMethods := do
  return ⟨← token .methodDef row.moveNextMethod, ← token .methodDef row.kickoffMethod⟩

/-- The record of a row. -/
def infoOfRow (heaps : Heaps) (row : CustomInfoRow) : Except Error InfoRecord := do
  let kind := CustomKind.ofGuid (← guidAt heaps.guids row.kind.toNat)
  let value ← customInfo kind (← blobAt heaps.blobs row.value.toNat)
  return ⟨row.rid, ← token row.parent.table row.parent.row, kind, value⟩

/-- The container in some bytes. -/
def container (data : Bytes) : Except Error Container := do
  let root ← root data
  let some headData ← streamData? root data streamName | reject .noPdbStream
  let compressed ← streamData? root data "#~"
  let uncompressed ← streamData? root data "#-"
  let some tables := compressed.orElse fun () => uncompressed | reject .pdbWithoutTables
  let strings ← stringHeap ((← streamData? root data "#Strings").getD #[0])
  let blobs ← blobHeap ((← streamData? root data "#Blob").getD #[0])
  let guids ← GuidHeap.ofBytes ((← streamData? root data "#GUID").getD #[])
  let heaps : Heaps := ⟨strings, blobs, guids⟩
  let ⟨contentId, entryPoint, typeSystemRows⟩ ← head headData
  let stream ← tablesStream tables (some typeSystemRows)
  let documents ← (← rows DocumentRow stream).mapM (documentOf heaps)
  let methods ← (← rows MethodDebugRow stream).mapM (methodOf heaps)
  let variableRows ← rows LocalVariableRow stream
  let scopeRows ← rows LocalScopeRow stream
  let localScopes ← scopeRows.zipIdx.mapM fun (row, index) =>
    scopeOf heaps variableRows scopeRows row index
  let importScopes ← (← rows ImportScopeRow stream).mapM (importScopeOf heaps)
  let machines ← (← rows StateMachineRow stream).mapM machineOf
  let infoRows ← rows CustomInfoRow stream
  let info ← infoRows.mapM (infoOfRow heaps)
  let documents := (infoRows.zip info).foldl (fun documents (row, record) =>
    addSource documents row record) documents
  let tables ← summary stream
  return {
    id := contentId, entryPoint, typeSystemRows, tables
    documents, methods, localScopes, importScopes, machines, info }

/-- The heaps fit into memory. -/
structure AreSmall (heaps : Heaps) : Prop where
  blobs : heaps.blobs.data.size < memory
  guids : heaps.guids.data.size < memory

section Rows

variable {heaps : Heaps}

theorem agrees_documentOf (hheaps : AreSmall heaps) (row : DocumentRow) :
    Agrees (documentOf heaps row) (Container.documentOf heaps row) fun _ => True :=
  (agrees_blobAt hheaps.blobs _).bind fun _ hname =>
    (agrees_documentName hheaps.blobs hname).bind fun _ _ =>
      (agrees_guidAt hheaps.guids _).bind fun _ _ => (agrees_blobAt hheaps.blobs _).bind fun _ _ =>
        (agrees_guidAt hheaps.guids _).bind fun _ _ => Agrees.pure trivial

theorem agrees_methodOf (hheaps : AreSmall heaps) (row : MethodDebugRow) :
    Agrees (methodOf heaps row) (Container.methodOf heaps row) fun _ => True := by
  have hmethod (points : Option SequencePoints) :
      Agrees (do return ⟨← token .methodDef row.rid, row.document, points⟩)
        (.ok (⟨.methodDef row.rid, row.document, points⟩ : DebugMethod)) fun _ => True :=
    Agrees.step (token_eq _ _) (Agrees.ok trivial)
  unfold methodOf pointsOf Container.methodOf
  by_cases hzero : row.sequencePoints = 0
  · simp only [if_pos hzero]
    exact hmethod none
  · simp only [if_neg hzero, bind_assoc, map_eq_pure_bind, pure_bind]
    exact (agrees_blobAt hheaps.blobs _).bind fun blob hblob =>
      (agrees_sequencePoints hblob _).bind fun points _ => hmethod (some points)

theorem agrees_variableOf (row : LocalVariableRow) :
    Agrees (variableOf heaps row) (Container.variableOf heaps row) fun _ => True :=
  (agrees_stringAt _ _).bind fun _ _ => Agrees.pure trivial

theorem agrees_scopeOf {rows : Array LocalVariableRow} {scopes : Array LocalScopeRow} {index : Nat}
    (hrows : rows.size < 0x100000000) (hindex : index < 0x100000000) (row : LocalScopeRow) :
    Agrees (scopeOf heaps rows scopes row index)
      (Container.scopeOf heaps rows scopes[index + 1]? row) fun _ => True := by
  refine Agrees.step (add_eq (by simp only [Word.limit]; omega)) <|
    Agrees.step (add_eq (by simp only [Word.limit]; omega)) ?_
  refine (Agrees.mapM fun row _ => agrees_variableOf row).bind fun slots _ => ?_
  exact Agrees.step (token_eq _ _) (Agrees.pure trivial)

theorem agrees_importScopeOf (hheaps : AreSmall heaps) (row : ImportScopeRow) :
    Agrees (importScopeOf heaps row) (Container.importScopeOf heaps row) fun _ => True := by
  refine Agrees.ite (fun _ => Agrees.pure trivial) fun _ => ?_
  exact (agrees_blobAt hheaps.blobs _).bind fun blob hblob =>
    (agrees_imports hheaps.blobs hblob).bind fun _ _ => Agrees.pure trivial

theorem machineOf_eq (row : StateMachineRow) : machineOf row = .ok (Container.machineOf row) := by
  rw [machineOf, token_eq, ok_bind, token_eq, ok_bind]
  rfl

theorem agrees_infoOfRow (hheaps : AreSmall heaps) (row : CustomInfoRow) :
    Agrees (infoOfRow heaps row) (Container.infoOfRow heaps row) fun _ => True :=
  (agrees_guidAt hheaps.guids _).bind fun _ _ => (agrees_blobAt hheaps.blobs _).bind fun _ hblob =>
    (agrees_customInfo _ hblob).bind fun _ _ => Agrees.step (token_eq _ _) (Agrees.pure trivial)

end Rows

theorem readsAs_headCounts (mask : UInt64) (slots : List (Fin 64)) (rows : RowCounts) :
    ReadsAs (headCounts mask slots rows) (Container.readCounts mask slots rows) 0
      fun _ => True := by
  induction slots generalizing rows with
  | nil => exact ReadsAs.pure trivial
  | cons slot slots ih =>
    refine ReadsAs.step (shiftLeft_eq slot.isLt) ?_
    simp only [and_shiftLeft_ne_zero_iff slot.isLt]
    exact ReadsAs.ite (fun _ => readsAs_le32.andThen fun count _ => ih _) fun _ => ih rows

theorem readsAs_headAfter (id : ContentId) :
    ReadsAs (readHeadAfter id)
      (do
        return ⟨id, ⟨← Reader.le32⟩,
          ← Container.readCounts (← Reader.le64) (List.finRange 64) RowCounts.none⟩) 0
      fun _ => True :=
  readsAs_le32.andThen fun _ _ => readsAs_le64.andThen fun mask _ =>
    (readsAs_headCounts mask _ _).andThen fun _ _ => ReadsAs.pure trivial

theorem agrees_head {data : Bytes} (hsize : data.size < memory) :
    Agrees (head data) (readHead.eval data) fun _ => True := by
  by_cases hshort : data.size < ContentId.size + 12
  · have hplain : readHead.eval data = .error .outOfBounds := by
      rw [Reader.eval, Reader.evalAt, readHead, Reader.runAt_bind, runAt_remaining]
      simp only [Nat.sub_zero, if_pos hshort]
      rfl
    rw [hplain, head, if_pos hshort]
    exact Agrees.error outOfBounds_ne_fault
  · have hlong : 32 ≤ data.size := Nat.le_of_not_lt hshort
    have hform : (data.extract 0 16).size = 16 := by
      simp only [Array.size_extract]
      omega
    obtain ⟨stamp, hstamp⟩ := Reader.reads_le32 data 16 (by omega)
    have hid : ContentId.read.runAt data 0 =
        .ok ⟨⟨⟨data.extract 0 16, hform⟩⟩, stamp⟩ ContentId.size := by
      simp only [ContentId.read, Reader.guid, Reader.runAt_bind,
        Reader.runAt_bytes (show 0 + 16 ≤ data.size by omega), Nat.zero_add, Guid.ofBytes?,
        dif_pos hform, Reader.runAt_pure, hstamp]
      rfl
    have hchecked : contentId data = .ok ⟨⟨⟨data.extract 0 16, hform⟩⟩, stamp⟩ := by
      rw [contentId, if_neg (by simp only [ContentId.size]; omega),
        slice_eq (Nat.zero_le _) (by omega), ok_bind]
      simp only [Guid.ofBytes?, dif_pos hform]
      rw [(readsAs_le32.readFrom Relocates.le32 hsize (by omega)).eq, Reader.evalAt, hstamp]
      rfl
    have hplain : readHead.eval data = Reader.evalAt (do
        return ⟨⟨⟨⟨data.extract 0 16, hform⟩⟩, stamp⟩, ⟨← Reader.le32⟩,
          ← Container.readCounts (← Reader.le64) (List.finRange 64) RowCounts.none⟩) data
        ContentId.size := by
      rw [Reader.eval, Reader.evalAt, readHead, Reader.runAt_bind, runAt_remaining]
      simp only [Nat.sub_zero, if_neg hshort]
      rw [Reader.runAt_bind, hid]
      rfl
    rw [hplain, head, if_neg hshort, hchecked]
    exact (readsAs_headAfter _).evalAt hsize (by simp only [ContentId.size]; omega)

theorem agrees_guidHeap (data : Bytes) :
    Agrees (GuidHeap.ofBytes data) (GuidHeap.ofBytes data) fun heap => heap.data = data :=
  Agrees.ite (fun _ => Agrees.ok rfl) fun _ => Agrees.throw nofun

theorem agrees_container {data : Bytes} (hsize : data.size < memory) :
    Agrees (container data) (ofBytes data) fun _ => True := by
  have hsmall {root : Root} {name : String} {empty : Bytes} (hempty : empty.size < memory) :
      ((root.streamData? data name).getD empty).size < memory := by
    cases hstream : root.streamData? data name with
    | none => exact hempty
    | some stream => exact Nat.lt_of_le_of_lt (size_le_of_streamData? hstream) hsize
  refine (agrees_root hsize).bind fun root _ => ?_
  refine Agrees.step (streamData?_eq root data _) ?_
  cases hhead : root.streamData? data streamName with
  | none => exact Agrees.throw nofun
  | some headData =>
  have hheadSize := Nat.lt_of_le_of_lt (size_le_of_streamData? hhead) hsize
  refine Agrees.step (streamData?_eq root data _) <| Agrees.step (streamData?_eq root data _) ?_
  cases htables : (root.streamData? data "#~").orElse fun () => root.streamData? data "#-" with
  | none => exact Agrees.throw nofun
  | some tables =>
  have htablesSize : tables.size < memory := by
    cases hcompressed : root.streamData? data "#~" with
    | none =>
      rw [hcompressed] at htables
      exact Nat.lt_of_le_of_lt (size_le_of_streamData? htables) hsize
    | some compressed =>
      rw [hcompressed] at htables
      cases htables
      exact Nat.lt_of_le_of_lt (size_le_of_streamData? hcompressed) hsize
  refine Agrees.step (streamData?_eq root data _) ?_
  refine (agrees_stringHeap _).bind fun strings _ => ?_
  refine Agrees.step (streamData?_eq root data _) ?_
  refine (agrees_blobHeap _).bind fun blobs hblobs => ?_
  refine Agrees.step (streamData?_eq root data _) ?_
  refine (agrees_guidHeap _).bind fun guids hguids => ?_
  have hheaps : AreSmall ⟨strings, blobs, guids⟩ :=
    ⟨hblobs ▸ hsmall (by decide), hguids ▸ hsmall (by decide)⟩
  refine (agrees_head hheadSize).bind fun parts _ => ?_
  refine (agrees_tablesStream htablesSize _).bind fun stream ⟨hbounded, hdata⟩ => ?_
  have hrows (ρ : Type) [Row ρ] [CheckedRow ρ] : rows ρ stream = .ok (stream.rows ρ) :=
    rows_eq (hdata ▸ htablesSize) hbounded
  refine Agrees.step (hrows DocumentRow) <|
    (Agrees.mapM_array fun row _ => agrees_documentOf hheaps row).bind fun documents _ => ?_
  refine Agrees.step (hrows MethodDebugRow) <|
    (Agrees.mapM_array fun row _ => agrees_methodOf hheaps row).bind fun methods _ => ?_
  have hscopes (scope : LocalScopeRow × Nat) (hscope : scope ∈ (stream.rows LocalScopeRow).zipIdx) :
      Agrees (scopeOf ⟨strings, blobs, guids⟩ (stream.rows LocalVariableRow)
          (stream.rows LocalScopeRow) scope.1 scope.2)
        (Container.scopeOf ⟨strings, blobs, guids⟩ (stream.rows LocalVariableRow)
          (stream.rows LocalScopeRow)[scope.2 + 1]? scope.1) fun _ => True := by
    have hindex : scope.2 < (stream.rows LocalScopeRow).size :=
      (Array.getElem?_eq_some_iff.mp (Array.mem_zipIdx_iff_getElem?.mp hscope)).1
    exact agrees_scopeOf (size_rows_lt _ stream) (Nat.lt_trans hindex (size_rows_lt _ stream)) _
  refine Agrees.step (hrows LocalVariableRow) <| Agrees.step (hrows LocalScopeRow) <|
    (Agrees.mapM_array hscopes).bind fun localScopes _ => ?_
  refine Agrees.step (hrows ImportScopeRow) <|
    (Agrees.mapM_array fun row _ => agrees_importScopeOf hheaps row).bind fun importScopes _ => ?_
  refine Agrees.step (hrows StateMachineRow) <|
    Agrees.step (mapM_array_eq_ok fun row _ => machineOf_eq row) ?_
  refine Agrees.step (hrows CustomInfoRow) <|
    (Agrees.mapM_array fun row _ => agrees_infoOfRow hheaps row).bind fun info _ => ?_
  exact Agrees.step (summary_eq stream) (Agrees.pure trivial)

/-- Where addresses have 64 bits, no data take the reader of containers out of the range of an
operation: the reader that checks every slice, index, sum, product and shift gives for all data in
memory what the plain reader gives, a container or an error about the data, and never a fault. -/
theorem container_in_range {data : Bytes} (hsize : data.size < memory) :
    container data = ofBytes data ∧ ofBytes data ≠ .error .fault :=
  ⟨(agrees_container hsize).eq, (agrees_container hsize).ne_fault⟩

/-- A root with one stream, whose place and size are as large as their words allow. -/
def overflowingRoot : Bytes :=
  #[0x42, 0x53, 0x4A, 0x42, 1, 0, 1, 0, 0, 0, 0, 0, 4, 0, 0, 0, 0x50, 0x44, 0x42, 0, 0, 0, 1, 0,
    0xFF, 0xFF, 0xFF, 0xFF, 0xFF, 0xFF, 0xFF, 0xFF, 0x23, 0x50, 0x64, 0x62, 0, 0, 0, 0]

theorem container_in_range_overflowingRoot :
    overflowingRoot.size < memory ∧ container overflowingRoot = ofBytes overflowingRoot ∧
      ofBytes overflowingRoot ≠ .error .fault ∧
      ofBytes overflowingRoot = reject (.streamOverflow 0xFFFFFFFF 0xFFFFFFFF) := by
  obtain ⟨heq, hfault⟩ := container_in_range (show overflowingRoot.size < memory by decide)
  exact ⟨by decide, heq, hfault, by rfl⟩

end PortablePdb.Checked
