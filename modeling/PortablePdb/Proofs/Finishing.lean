import PortablePdb.Proofs.Checked.Layout
import PortablePdb.Proofs.Fitting
import PortablePdb.Proofs.Limits

namespace PortablePdb

namespace DebugTables

variable {tables : DebugTables} {typeSystemRows : RowCounts}

/-- The rows of debug tables have six columns at most. -/
theorem rowSize_le_of_isDebug (layout : Layout) {table : Table} (hdebug : table.isDebug = true) :
    table.rowSize layout ≤ 24 := by
  have hsum := Checked.TableInfo.foldr_columnSize_le layout table.columns
  have hlength : table.columns.length ≤ 6 := by
    cases table <;> first | decide | cases hdebug
  rw [Table.rowSize]
  omega

/-- The stream of tables that are not overfull has three gigabytes at most. -/
theorem size_encodeStream_le {form : Bytes} (hform : tables.encodeStream typeSystemRows = .ok form)
    (hrows : ∀ table, tables.size table ≤ 0xFFFFFF) :
    form.size ≤ 0xC0000000 := by
  simp only [encodeStream] at hform
  obtain ⟨body, hbody, hform⟩ := bind_eq_ok_iff.mp hform
  obtain ⟨segment, hsegment, hbody⟩ := encodeAllRows_eq hbody
  have hdebug : Container.debugTables.length = 8 := by decide
  have hpresent : tables.present.length ≤ Container.debugTables.length :=
    List.length_filter_le _ _
  have hcounts := tables.size_concat_counts
  have hsegment : ∀ table ∈ Container.debugTables, (segment table).size ≤ 0xFFFFFF * 24 := by
    intro table htable
    rw [size_encodeTable (hsegment table)]
    exact Nat.mul_le_mul (hrows table) (rowSize_le_of_isDebug _ (List.mem_filter.mp htable).2)
  have hsegments := Bytes.size_concat_map_le hsegment
  rw [← pure_eq_ok_iff.mp hform, hbody, Bytes.foldl_append_eq]
  simp only [Bytes.size_pad4, Bytes.align4, Array.size_append, Bytes.size_le32, Bytes.size_le64]
  have hflags : (#[2, 0, (tables.layout typeSystemRows).heapSizes, 1] : Bytes).size = 4 := rfl
  omega

/-- The container of tables that are not overfull has less than four gigabytes if the heap of blobs
has half a gigabyte and the other heaps are small. -/
theorem encodedSize_streams_lt {form : Bytes}
    (hform : tables.encodeStream typeSystemRows = .ok form)
    (hrows : ∀ table, tables.size table ≤ 0xFFFFFF) (hstrings : tables.strings.size ≤ 0x10000)
    (hguids : tables.guids.size ≤ 0x10000) (hblobs : tables.blobs.size ≤ 0x20000000)
    (id : ContentId) (entryPoint : Token) :
    Root.encodedSize Container.version (tables.streams id entryPoint typeSystemRows form) <
      0x100000000 := by
  have hslots : (Container.usedSlots typeSystemRows).length ≤ 64 := List.length_filter_le _ _
  have hstream := size_encodeStream_le hform hrows
  rw [encodedSize_streams]
  simp only [Bytes.align4]
  omega

end DebugTables

namespace DebugBuilder

variable {builder : DebugBuilder} {count : UInt32} {tables : DebugTables}

/-- A builder within its limits is finished. -/
theorem Refers.exists_finish (hrefers : builder.Refers count) (hwithin : builder.IsWithin 0) :
    ∃ tables, builder.finish count = .ok tables := by
  have hexcess : builder.excessMethod? count = none := by
    rw [Option.eq_none_iff_forall_ne_some]
    intro row hrow
    obtain ⟨hlt, hmethod⟩ := excessMethod?_eq_some hrow
    rw [← Std.HashMap.isSome_getElem?_eq_contains] at hmethod
    obtain ⟨entry, hentry⟩ := Option.isSome_iff_exists.mp hmethod
    exact absurd (hrefers.methods row entry hentry).1 (UInt32.not_le.mpr hlt)
  have hscopes : ∃ scopes, numberScopes count (builder.localScopes.toList.mergeSort fun a b =>
      DebugTables.scopeLE a.1 b.1) #[] #[] = .ok (scopes, #[]) := by
    have hsize := hwithin.localScopes
    apply exists_numberScopes
    · intro scope hscope
      have hmem := Array.mem_toList_iff.mp ((List.mergeSort_perm _ _).mem_iff.mp hscope)
      obtain ⟨hmethod, _, hslots⟩ := hrefers.localScopes scope hmem
      exact ⟨hmethod, hslots⟩
    · rw [List.length_mergeSort, Array.length_toList, Array.size_empty]
      omega
  have hmachines : ∃ rows, numberMachines (builder.machines.toList.mergeSort fun a b =>
      a.1 ≤ b.1) #[] = .ok rows := by
    have hsize := hwithin.machines
    apply exists_numberMachines
    rw [List.length_mergeSort, Array.length_toList, Array.size_empty]
    omega
  have hsorted : ∃ sorted, sortInfo builder.customInfo.toList = .ok sorted :=
    exists_sortInfo fun record hrecord =>
      (hrefers.customInfo record (Array.mem_toList_iff.mp hrecord)).1.exists_encode
  obtain ⟨localScopes, hscopes⟩ := hscopes
  obtain ⟨stateMachines, hmachines⟩ := hmachines
  obtain ⟨sorted, hsorted⟩ := hsorted
  have hinfo : ∃ rows, numberInfo sorted #[] = .ok rows := by
    have hsize := hwithin.customInfo
    apply exists_numberInfo
    rw [(perm_sortInfo hsorted).length_eq, Array.length_toList, Array.size_empty]
    omega
  obtain ⟨customInfo, hinfo⟩ := hinfo
  exact ⟨_, finish_eq_ok hexcess hscopes hmachines hsorted hinfo⟩

/-- The entry of each method of a module refers to a document and to points that there are. -/
theorem Refers.getD_methods (hrefers : builder.Refers count) (row : UInt32) :
    (builder.methods.getD row (0, 0)).1.toNat ≤ builder.documents.size ∧
      ((builder.methods.getD row (0, 0)).2 = 0 ∨ ∃ points, BlobHeap.HasBlob
        builder.heaps.blobs.data (builder.methods.getD row (0, 0)).2 points) := by
  rw [Std.HashMap.getD_eq_getD_getElem?]
  cases hentry : builder.methods[row]? with
  | none => exact ⟨Nat.zero_le _, .inl rfl⟩
  | some entry => exact (hrefers.methods row entry hentry).2

theorem HasParent.row_le {typeSystemRows : RowCounts} {parent : CodedIndex}
    (hparent : builder.HasParent count parent) (hfinishes : builder.Finishes count tables)
    (hcount : count ≤ typeSystemRows.ofTable .methodDef) :
    parent.row ≤ (tables.allRows typeSystemRows).ofTable parent.table := by
  obtain ⟨htable, hle⟩ | ⟨htable, hle⟩ := hparent
  · have hsize := tables.toNat_rowCount .document
    have hlt := parent.row.toNat_lt
    rw [htable, DebugTables.ofTable_allRows, UInt32.le_iff_toNat_le]
    change parent.row.toNat ≤ (tables.rowCount .document).toNat
    rw [hsize, DebugTables.size, hfinishes.documents]
    omega
  · rw [htable, DebugTables.ofTable_allRows]
    exact UInt32.le_trans hle hcount

/-- Finished custom debug information is about rows that there are, and refers to what the padded
heaps hold. -/
theorem Refers.informs {typeSystemRows : RowCounts} (hrefers : builder.Refers count)
    (hfinishes : builder.Finishes count tables)
    (hcount : count ≤ typeSystemRows.ofTable .methodDef) :
    ∀ row ∈ tables.customInfo,
      (row.parent.row ≤ (tables.allRows typeSystemRows).ofTable row.parent.table ∧
        ∃ key, row.parent.encode .hasCustomDebugInformation = .ok key) ∧
      ∃ info, StoresInfo tables.blobs tables.guids (row.parent, row.kind, row.value) info := by
  have hpadded := hrefers.heaps.toIsSound.extends_padded
  intro row hrow
  obtain ⟨hparent, info, hinfo⟩ := hrefers.customInfo _ (hfinishes.mem_customInfo hrow)
  rw [hfinishes.blobs, hfinishes.guids]
  exact ⟨⟨hparent.row_le hfinishes hcount, hparent.exists_encode⟩, info,
    hpadded.storesInfo hinfo⟩

/-- Finished methods have documents that there are, and points that the padded heaps hold. -/
theorem Refers.submits (hrefers : builder.Refers count)
    (hfinishes : builder.Finishes count tables) :
    ∀ row ∈ tables.methods, row.document.toNat ≤ tables.documents.size ∧
      (row.sequencePoints = 0 ∨
        ∃ points, BlobHeap.HasBlob tables.blobs row.sequencePoints points) := by
  have hpadded := hrefers.heaps.toIsSound.extends_padded
  rw [hfinishes.documents, hfinishes.methods, hfinishes.blobs]
  intro row hrow
  obtain ⟨number, rfl⟩ := mem_methodRows hrow
  obtain ⟨hdocument, hpoints⟩ := hrefers.getD_methods number
  exact ⟨hdocument, hpoints.imp_right fun ⟨points, hblob⟩ => ⟨points, hpadded.hasBlob hblob⟩⟩

/-- The finished tables refer to what there is, and there are no variables. -/
theorem Refers.refersWithin {typeSystemRows : RowCounts} (hrefers : builder.Refers count)
    (hfinishes : builder.Finishes count tables)
    (hcount : count ≤ typeSystemRows.ofTable .methodDef) :
    tables.RefersWithin typeSystemRows ∧ ¬ tables.OverrunsVariables := by
  have hsound := hrefers.heaps.toIsSound
  have hmethods := hrefers.submits hfinishes
  have hinfo := hrefers.informs hfinishes hcount
  have hvariables := hfinishes.localVariables fun scope hscope =>
    (hrefers.localScopes scope hscope).2.2
  have hscopes : ∀ row ∈ tables.localScopes, row.method ≤ count ∧
      row.importScope.toNat ≤ tables.importScopes.size ∧ row.constantList = 1 := by
    intro row hrow
    obtain ⟨record, hrecord, hbecomes, hmethod⟩ := hfinishes.exists_scope hrow
    rw [hbecomes, hfinishes.importScopes]
    exact ⟨hmethod, (hrefers.localScopes record hrecord).2.1, rfl⟩
  have hmachines : ∀ row ∈ tables.stateMachines, row.moveNextMethod ≤ count ∧
      row.kickoffMethod ≤ count := fun row hrow =>
    hrefers.machines _ (hfinishes.mem_machines hrow)
  refine ⟨{
    documents := hfinishes.describes hsound hrefers.documents
    document_le := fun row hrow => (hmethods row hrow).1
    sequencePoints := fun row hrow => (hmethods row hrow).2
    method_le := fun row hrow => UInt32.le_trans (hscopes row hrow).1 hcount
    importScope_le := fun row hrow => (hscopes row hrow).2.1
    variableList_le := hfinishes.lays.variableList_le
    constantList := fun row hrow => (hscopes row hrow).2.2
    localVariables := by simp [hvariables]
    localConstants := hfinishes.localConstants
    parent_le := by
      rw [hfinishes.importScopes]
      exact fun row hrow => (hrefers.importScopes row hrow).1
    imports := hfinishes.imports hsound fun row hrow => (hrefers.importScopes row hrow).2
    stateMachines := fun row hrow => (hmachines row hrow).imp
      (fun hle => UInt32.le_trans hle hcount) fun hle => UInt32.le_trans hle hcount
    parents := fun row hrow => (hinfo row hrow).1
    customInfo := fun row hrow => (hinfo row hrow).2 }, ?_⟩
  rintro ⟨hsize, _⟩
  rw [hvariables] at hsize
  cases hsize

/-- The finished tables of a builder within its limits are not overfull. -/
theorem Refers.size_le (hrefers : builder.Refers count) (hwithin : builder.IsWithin 0)
    (hfinishes : builder.Finishes count tables) (hcount : count.toNat ≤ 0xFFFFFF) (table : Table) :
    tables.size table ≤ 0xFFFFFF := by
  have hscopes := hfinishes.lays.numbersScopes.records.length_eq
  have hvariables := hfinishes.localVariables fun scope hscope =>
    (hrefers.localScopes scope hscope).2.2
  have hmachines := hfinishes.numbersMachines.records.length_eq
  have hinfo := (perm_sortInfo hfinishes.customInfo).length_eq
  rw [List.length_mergeSort, Array.length_toList, Array.length_toList] at hscopes hmachines
  rw [List.length_map, Array.length_toList, Array.length_toList] at hinfo
  obtain ⟨hdocuments, himports, hlocalScopes, hstateMachines, hcustomInfo, _⟩ := hwithin
  cases table with
  | document =>
    rw [DebugTables.size, hfinishes.documents]
    omega
  | methodDebugInformation =>
    rw [DebugTables.size, hfinishes.methods, methodRows, Array.size_ofFn]
    exact hcount
  | localScope =>
    rw [DebugTables.size]
    omega
  | localVariable => simp [DebugTables.size, hvariables]
  | localConstant => simp [DebugTables.size, hfinishes.localConstants]
  | importScope =>
    rw [DebugTables.size, hfinishes.importScopes]
    omega
  | stateMachineMethod =>
    rw [DebugTables.size]
    omega
  | customDebugInformation =>
    rw [DebugTables.size]
    omega
  | _ => exact Nat.zero_le _

/-- The finished tables of a builder within its limits are written, to less than four gigabytes. -/
theorem Refers.exists_encode {typeSystemRows : RowCounts} (hrefers : builder.Refers count)
    (hwithin : builder.IsWithin 0) (hfinishes : builder.Finishes count tables)
    (hcount : count.toNat ≤ 0xFFFFFF) (hmethods : count ≤ typeSystemRows.ofTable .methodDef)
    (id : ContentId) (entryPoint : Token) :
    ∃ data, tables.encode id entryPoint typeSystemRows = .ok data ∧ data.size < 0x100000000 := by
  obtain ⟨hreferred, hvariables⟩ := hrefers.refersWithin hfinishes hmethods
  obtain ⟨form, hform⟩ := hreferred.exists_encodeStream hvariables
  have hstrings : tables.strings.size ≤ 0x10000 := by
    rw [hfinishes.strings, hrefers.heaps.noStrings]
    decide
  have hguids : tables.guids.size ≤ 0x10000 := by
    have hfew := hrefers.heaps.fewGuids.size_le
    have hknown : knownGuids.length = 8 := rfl
    rw [hfinishes.guids]
    omega
  have hblobs : tables.blobs.size ≤ 0x20000000 := by
    have hroom : builder.heaps.blobs.data.size + 0 < 0x20000000 := hwithin.blobs
    rw [hfinishes.blobs, Bytes.size_pad4, Bytes.align4]
    omega
  have hsize := DebugTables.encodedSize_streams_lt hform
    (hrefers.size_le hwithin hfinishes hcount) hstrings hguids hblobs id entryPoint
  obtain ⟨data, hdata, hlength⟩ := DebugTables.exists_encode_of_form hform id entryPoint hsize
  exact ⟨data, hdata, hlength ▸ hsize⟩

end DebugBuilder

end PortablePdb
