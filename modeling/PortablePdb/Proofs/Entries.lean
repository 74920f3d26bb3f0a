import PortablePdb.Proofs.Patch
import PortablePdb.Proofs.Tabulation

namespace PortablePdb

/-- Numbering rows again that have their numbers changes nothing. -/
theorem IsNumbered.mapIdx_eq {ρ : Type} {rid : ρ → UInt32} {rows : Array ρ}
    (hrows : IsNumbered rid rows) (number : UInt32 → ρ → ρ)
    (hnumber : ∀ row, number (rid row) row = row) :
    rows.mapIdx (fun i row => number (i + 1).toUInt32 row) = rows := by
  apply Array.ext
  · exact Array.size_mapIdx
  · intro i hi hlt
    have hrid : (i + 1).toUInt32 = rid rows[i] := by
      rw [← hrows i hlt]
      simp
    rw [Array.getElem_mapIdx, hrid, hnumber]

/-- A stream whose tables have the rows of other tables. -/
structure TablesStream.Reads (stream : TablesStream) (tables : DebugTables) : Prop where
  documents : stream.rows DocumentRow = tables.documents
  methods : stream.rows MethodDebugRow = tables.methods
  localScopes : stream.rows LocalScopeRow = tables.localScopes
  importScopes : stream.rows ImportScopeRow = tables.importScopes
  stateMachines : stream.rows StateMachineRow = tables.stateMachines
  customInfo : stream.rows CustomInfoRow = tables.customInfo

/-- Rows that are numbered are read as they are. -/
theorem TablesStream.Holds.reads {stream : TablesStream} {tables : DebugTables}
    (hholds : stream.Holds tables) (hnumbered : tables.AllNumbered) : stream.Reads tables where
  documents := hholds.documents.trans
    (hnumbered.documents.mapIdx_eq (fun rid row => { row with rid }) fun _ => rfl)
  methods := hholds.methods.trans
    (hnumbered.methods.mapIdx_eq (fun rid row => { row with rid }) fun _ => rfl)
  localScopes := hholds.localScopes.trans
    (hnumbered.localScopes.mapIdx_eq (fun rid row => { row with rid }) fun _ => rfl)
  importScopes := hholds.importScopes.trans
    (hnumbered.importScopes.mapIdx_eq (fun rid row => { row with rid }) fun _ => rfl)
  stateMachines := hholds.stateMachines.trans
    (hnumbered.stateMachines.mapIdx_eq (fun rid row => { row with rid }) fun _ => rfl)
  customInfo := hholds.customInfo.trans
    (hnumbered.customInfo.mapIdx_eq (fun rid row => { row with rid }) fun _ => rfl)

theorem StringHeap.eq_of_ofBytes {data : Bytes} {heap : StringHeap}
    (hheap : ofBytes data = .ok heap) : heap = ⟨data⟩ := by
  unfold ofBytes at hheap
  split at hheap <;> cases hheap
  rfl

theorem BlobHeap.eq_of_ofBytes {data : Bytes} {heap : BlobHeap}
    (hheap : ofBytes data = .ok heap) : heap = ⟨data⟩ := by
  unfold ofBytes at hheap
  split at hheap <;> cases hheap
  rfl

theorem GuidHeap.eq_of_ofBytes {data : Bytes} {heap : GuidHeap}
    (hheap : ofBytes data = .ok heap) : heap = ⟨data⟩ := by
  unfold ofBytes at hheap
  split at hheap <;> cases hheap
  rfl

namespace Container

variable {tables : DebugTables} {container : Container} {data : Bytes}

/-- The entries of a container are those of the rows of tables, in their order. The text of a
document comes from elsewhere. -/
structure Lists (container : Container) (tables : DebugTables) : Prop where
  documents : List.Forall₂ (fun row document => ∃ source,
      documentOf tables.heaps row = .ok { document with source })
    tables.documents.toList container.documents.toList
  methods : List.Forall₂ (fun row method => methodOf tables.heaps row = .ok method)
    tables.methods.toList container.methods.toList
  localScopes : List.Forall₂ (fun row scope => ∃ slots,
      scope = ⟨row.rid, .methodDef row.method, row.importScope, row.startOffset, row.length, slots⟩)
    tables.localScopes.toList container.localScopes.toList
  importScopes : List.Forall₂ (fun row scope => importScopeOf tables.heaps row = .ok scope)
    tables.importScopes.toList container.importScopes.toList
  machines : container.machines = tables.stateMachines.map machineOf
  info : List.Forall₂ (fun row record => infoOfRow tables.heaps row = .ok record)
    tables.customInfo.toList container.info.toList

/-- Texts of documents leave everything else of the documents as it is. -/
theorem forall₂_foldl_addSource {R : DocumentRow → Document → Prop} {rows : List DocumentRow}
    (hsource : ∀ row document source, R row document → R row { document with source })
    (entries : List (CustomInfoRow × InfoRecord)) {documents : Array Document}
    (hdocuments : List.Forall₂ R rows documents.toList) :
    List.Forall₂ R rows (entries.foldl (fun documents entry => addSource documents entry.1 entry.2)
      documents).toList := by
  induction entries generalizing documents with
  | nil => exact hdocuments
  | cons entry entries ih =>
    rw [List.foldl_cons]
    apply ih
    unfold addSource
    split
    · split
      · rw [List.forall₂_iff_get] at hdocuments ⊢
        obtain ⟨hlength, hget⟩ := hdocuments
        refine ⟨by simpa using hlength, ?_⟩
        intro i hi hlt
        have hrow := hget i hi (by simpa using hlt)
        simp only [List.get_eq_getElem, Array.getElem_toList, Array.getElem_modify] at hrow ⊢
        split
        · exact hsource _ _ _ hrow
        · exact hrow
      · exact hdocuments
    · exact hdocuments

/-- A container that can be read is one that a word can measure. -/
theorem size_lt_of_ofBytes {id : ContentId} {entryPoint : Token} {typeSystemRows : RowCounts}
    (hdata : tables.encode id entryPoint typeSystemRows = .ok data)
    (hread : ofBytes data = .ok container) : data.size < 0x100000000 := by
  by_contra hlarge
  obtain ⟨root, hroot, _⟩ := bind_eq_ok_iff.mp hread
  rw [DebugTables.read_overflow hdata (Nat.not_lt.mp hlarge)] at hroot
  cases hroot

/-- The entries of a container are made of the rows of a stream, and of what these refer to in
heaps. -/
structure IsReadFrom (container : Container) (heaps : Heaps) (stream : TablesStream) : Prop where
  documents : ∃ documents,
    (stream.rows DocumentRow).mapM (documentOf heaps) = .ok documents ∧
      container.documents = ((stream.rows CustomInfoRow).zip container.info).foldl
        (fun documents (row, record) => addSource documents row record) documents
  methods : (stream.rows MethodDebugRow).mapM (methodOf heaps) = .ok container.methods
  localScopes : (stream.rows LocalScopeRow).zipIdx.mapM (fun (row, index) =>
    scopeOf heaps (stream.rows LocalVariableRow) (stream.rows LocalScopeRow)[index + 1]? row) =
      .ok container.localScopes
  importScopes : (stream.rows ImportScopeRow).mapM (importScopeOf heaps) =
    .ok container.importScopes
  machines : container.machines = (stream.rows StateMachineRow).map machineOf
  info : (stream.rows CustomInfoRow).mapM (infoOfRow heaps) = .ok container.info

/-- What is read from a container of tables comes from a stream that has the tables. -/
theorem exists_stream_of_ofBytes {id : ContentId} {entryPoint : Token} {typeSystemRows : RowCounts}
    (hdata : tables.encode id entryPoint typeSystemRows = .ok data)
    (hread : ofBytes data = .ok container) :
    ∃ stream : TablesStream, stream.Locates tables ∧ container.IsReadFrom tables.heaps stream := by
  have hsize := size_lt_of_ofBytes hdata hread
  obtain ⟨root, form, hroot, hhead, hstrings, hguids, hblobs, htables, hform, hfits⟩ :=
    DebugTables.exists_streams hdata hsize
  obtain ⟨stream, hstream, hlocates⟩ :=
    DebugTables.read_encodeStream hform hfits (TablesStream.typeSystemCounts_self typeSystemRows)
  unfold ofBytes at hread
  simp only [hroot, ok_bind, streamName, hhead, htables, hstrings, hblobs, hguids,
    Option.orElse_some, Option.getD_some] at hread
  obtain ⟨strings, hstringHeap, hread⟩ := bind_eq_ok_iff.mp hread
  obtain ⟨blobs, hblobHeap, hread⟩ := bind_eq_ok_iff.mp hread
  obtain ⟨guids, hguidHeap, hread⟩ := bind_eq_ok_iff.mp hread
  have hheaps : (⟨strings, blobs, guids⟩ : Heaps) = tables.heaps := by
    rw [StringHeap.eq_of_ofBytes hstringHeap, BlobHeap.eq_of_ofBytes hblobHeap,
      GuidHeap.eq_of_ofBytes hguidHeap]
    rfl
  simp only [(takes_readHead id entryPoint typeSystemRows).last.eval_eq, ok_bind, hstream, hheaps]
    at hread
  obtain ⟨documents, hdocuments, hread⟩ := bind_eq_ok_iff.mp hread
  obtain ⟨methods, hmethods, hread⟩ := bind_eq_ok_iff.mp hread
  obtain ⟨localScopes, hlocalScopes, hread⟩ := bind_eq_ok_iff.mp hread
  obtain ⟨importScopes, himportScopes, hread⟩ := bind_eq_ok_iff.mp hread
  obtain ⟨info, hinfo, hread⟩ := bind_eq_ok_iff.mp hread
  rw [← pure_eq_ok_iff.mp hread]
  refine ⟨stream, hlocates, ?_⟩
  exact {
    documents := ⟨documents, hdocuments, rfl⟩
    methods := hmethods
    localScopes := hlocalScopes
    importScopes := himportScopes
    machines := rfl
    info := hinfo }

/-- What is read from a container of numbered tables are the entries of the rows. -/
theorem lists_of_ofBytes {id : ContentId} {entryPoint : Token} {typeSystemRows : RowCounts}
    (hdata : tables.encode id entryPoint typeSystemRows = .ok data)
    (hnumbered : tables.AllNumbered)
    (hparents : ∀ row ∈ tables.customInfo, row.parent.row.toNat < 0x1000000)
    (hread : ofBytes data = .ok container) : container.Lists tables := by
  obtain ⟨stream, hlocates, hentries⟩ := exists_stream_of_ofBytes hdata hread
  have hrows := (hlocates.holds hparents).reads hnumbered
  exact {
    documents := by
      obtain ⟨documents, hdocuments, hsources⟩ := hentries.documents
      rw [hrows.documents] at hdocuments
      rw [hsources, ← Array.foldl_toList]
      apply forall₂_foldl_addSource
      · rintro row document source ⟨old, hdocument⟩
        exact ⟨old, hdocument⟩
      · exact (forall₂_of_array_mapM hdocuments).imp fun row document hdocument =>
          ⟨document.source, hdocument⟩
    methods := by
      rw [← hrows.methods]
      exact forall₂_of_array_mapM hentries.methods
    localScopes := by
      have hscopes := forall₂_of_array_mapM hentries.localScopes
      rw [hrows.localScopes, Array.toList_zipIdx] at hscopes
      rw [← List.zipIdx_map_fst 0 tables.localScopes.toList, List.forall₂_map_left_iff]
      refine hscopes.imp fun entry scope hscope => ?_
      obtain ⟨slots, _, hscope⟩ := bind_eq_ok_iff.mp hscope
      exact ⟨slots, (pure_eq_ok_iff.mp hscope).symm⟩
    importScopes := by
      rw [← hrows.importScopes]
      exact forall₂_of_array_mapM hentries.importScopes
    machines := by
      rw [hentries.machines, hrows.stateMachines]
    info := by
      rw [← hrows.customInfo]
      exact forall₂_of_array_mapM hentries.info }

end Container

end PortablePdb
