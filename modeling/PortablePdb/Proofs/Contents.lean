import PortablePdb.Proofs.Container

namespace PortablePdb

theorem exists_list_mapM {ε α β : Type} {f : α → Except ε β} {xs : List α}
    (hall : ∀ x ∈ xs, ∃ y, f x = .ok y) : ∃ ys, xs.mapM f = .ok ys := by
  induction xs with
  | nil => exact ⟨[], rfl⟩
  | cons x xs ih =>
    obtain ⟨y, hy⟩ := hall x List.mem_cons_self
    obtain ⟨ys, hys⟩ := ih fun x hx => hall x (List.mem_cons_of_mem _ hx)
    refine ⟨y :: ys, ?_⟩
    rw [List.mapM_cons, hy]
    exact bind_eq_ok_iff.mpr ⟨y, rfl, bind_eq_ok_iff.mpr ⟨ys, hys, rfl⟩⟩

/-- A map that succeeds on each element succeeds on all of them together, place by place. -/
theorem exists_array_mapM {ε α β : Type} {f : α → Except ε β} {xs : Array α}
    (hall : ∀ x ∈ xs, ∃ y, f x = .ok y) :
    ∃ ys, xs.mapM f = .ok ys ∧ List.Forall₂ (fun x y => f x = .ok y) xs.toList ys.toList := by
  have hlist : ∀ x ∈ xs.toList, ∃ y, f x = .ok y := fun x hx =>
    hall x (Array.mem_toList_iff.mp hx)
  obtain ⟨ys, hys⟩ := exists_list_mapM hlist
  refine ⟨ys.toArray, ?_, forall₂_of_list_mapM hys⟩
  rw [Array.mapM_eq_mapM_toList, hys]
  rfl

/-- What holds of rows under all numbers holds of the rows under the numbers of their places. -/
theorem forall_mem_numbered {ρ : Type} {rows : Array ρ} {P : ρ → Prop} (number : UInt32 → ρ → ρ)
    (hrows : ∀ row ∈ rows, ∀ rid, P (number rid row)) :
    ∀ row ∈ rows.mapIdx fun i row => number (i + 1).toUInt32 row, P row := by
  intro row hrow
  obtain ⟨i, hi, rfl⟩ := Array.mem_mapIdx.mp hrow
  exact hrows _ (Array.getElem_mem hi) _

theorem countP_mapIdx {ρ : Type} {p : ρ → Bool} {f : Nat → ρ → ρ}
    (hsame : ∀ i row, p (f i row) = p row) (rows : List ρ) :
    (rows.mapIdx f).countP p = rows.countP p := by
  induction rows generalizing f with
  | nil => rfl
  | cons row rows ih =>
    have hrest := ih (f := fun i => f (i + 1)) fun i => hsame (i + 1)
    rw [List.mapIdx_cons, List.countP_cons, List.countP_cons, hrest, hsame]

namespace DebugTables

/-- The heaps as a reader finds them in a container of the tables. -/
def heaps (tables : DebugTables) : Container.Heaps where
  strings := ⟨tables.strings.pad4⟩
  blobs := ⟨tables.blobs.pad4⟩
  guids := ⟨tables.guids.pad4⟩

/-- Tables whose rows refer to what their heaps hold. The numbers of rows do not matter, as a reader
counts them by itself. -/
structure IsResolved (tables : DebugTables) : Prop where
  strings : tables.strings.HasAt 0 #[0]
  blobs : tables.blobs.HasAt 0 #[0]
  guids : tables.guids.size % 16 = 0
  documents : ∀ row ∈ tables.documents, ∀ rid,
    ∃ document, Container.documentOf tables.heaps { row with rid } = .ok document
  methods : ∀ row ∈ tables.methods, ∀ rid,
    ∃ method, Container.methodOf tables.heaps { row with rid } = .ok method
  localVariables : ∀ row ∈ tables.localVariables, ∀ rid,
    ∃ slot, Container.variableOf tables.heaps { row with rid } = .ok slot
  importScopes : ∀ row ∈ tables.importScopes, ∀ rid,
    ∃ scope, Container.importScopeOf tables.heaps { row with rid } = .ok scope
  customInfo : ∀ row ∈ tables.customInfo, ∀ rid,
    ∃ record, Container.infoOfRow tables.heaps { row with rid } = .ok record
  parents : ∀ row ∈ tables.customInfo, row.parent.row.toNat < 0x1000000

variable {tables : DebugTables}

theorem IsResolved.heaps_eq (hresolved : tables.IsResolved) :
    StringHeap.ofBytes tables.strings.pad4 = .ok tables.heaps.strings ∧
      BlobHeap.ofBytes tables.blobs.pad4 = .ok tables.heaps.blobs ∧
      GuidHeap.ofBytes tables.guids.pad4 = .ok tables.heaps.guids := by
  have hstrings : tables.strings.pad4.HasAt 0 #[0] := hresolved.strings.grow _
  have hblobs : tables.blobs.pad4.HasAt 0 #[0] := hresolved.blobs.grow _
  have hguids : tables.guids.pad4.size % 16 = 0 := by
    have hwhole := hresolved.guids
    rw [Bytes.pad4_eq_self (by omega)]
    exact hwhole
  exact ⟨if_pos (hstrings.getElem?_eq 0 rfl), if_pos (hblobs.getElem?_eq 0 rfl), if_pos hguids⟩

end DebugTables

namespace Container

variable {tables : DebugTables} {container : Container}

/-- A container shows tables if it has an entry for each of their rows, in their order. -/
structure Shows (container : Container) (tables : DebugTables) : Prop where
  documents : container.documents.size = tables.documents.size
  methods : List.Forall₂ (fun row method => methodOf tables.heaps row = .ok method)
    (tables.methods.mapIdx fun i row => { row with rid := (i + 1).toUInt32 }).toList
    container.methods.toList
  localScopes : container.localScopes.size = tables.localScopes.size
  importScopes : container.importScopes.size = tables.importScopes.size
  machines : container.machines.size = tables.stateMachines.size
  info : container.info.size = tables.customInfo.size

theorem methodOf_eq {heaps : Heaps} {row : MethodDebugRow} {method : DebugMethod}
    (hmethod : methodOf heaps row = .ok method) :
    method.method = .methodDef row.rid ∧ method.document = row.document ∧
      method.points.isSome = (row.sequencePoints != 0) := by
  unfold methodOf at hmethod
  by_cases hpoints : row.sequencePoints = 0
  · rw [if_pos hpoints, pure_bind] at hmethod
    rw [← pure_eq_ok_iff.mp hmethod]
    simp [hpoints]
  · rw [if_neg hpoints] at hmethod
    obtain ⟨blob, _, hmethod⟩ := bind_eq_ok_iff.mp hmethod
    rw [map_eq_pure_bind, bind_assoc] at hmethod
    obtain ⟨points, _, hmethod⟩ := bind_eq_ok_iff.mp hmethod
    rw [pure_bind] at hmethod
    rw [← pure_eq_ok_iff.mp hmethod]
    simp [hpoints]

namespace Shows

theorem size_methods (hshows : container.Shows tables) :
    container.methods.size = tables.methods.size := by
  simpa using hshows.methods.length_eq.symm

/-- The methods of a container are numbered in the order of their rows. -/
theorem method_eq (hshows : container.Shows tables) {i : Nat} {method : DebugMethod}
    (hmethod : container.methods[i]? = some method) :
    method.method = .methodDef (i + 1).toUInt32 := by
  obtain ⟨hi, hget⟩ := Array.getElem?_eq_some_iff.mp hmethod
  have hrow := hshows.methods.get (by simpa [hshows.size_methods] using hi) hi
  simp only [List.get_eq_getElem, Array.getElem_toList, Array.getElem_mapIdx, hget] at hrow
  exact (methodOf_eq hrow).1

/-- A method of a container has points just where its row refers to some. -/
theorem countP_points (hshows : container.Shows tables) :
    container.methods.countP (·.points.isSome) = tables.methodsWithPoints := by
  have hcount (rows : List MethodDebugRow) (methods : List DebugMethod)
      (hmethods : List.Forall₂ (fun row method => methodOf tables.heaps row = .ok method)
        rows methods) :
      methods.countP (·.points.isSome) = rows.countP (·.sequencePoints != 0) := by
    induction hmethods with
    | nil => rfl
    | cons hmethod _ ih =>
      rw [List.countP_cons, List.countP_cons, ih, (methodOf_eq hmethod).2.2]
  have hnumbered := countP_mapIdx (p := fun row : MethodDebugRow => row.sequencePoints != 0)
    (f := fun i row => { row with rid := (i + 1).toUInt32 }) (fun _ _ => rfl) tables.methods.toList
  rw [← Array.countP_toList, hcount _ _ hshows.methods, Array.toList_mapIdx, hnumbered,
    Array.countP_toList]
  rfl

end Shows

/-- A scope is read if each variable is. -/
theorem exists_scopeOf {heaps : Heaps} {rows : Array LocalVariableRow}
    (hslots : ∀ row ∈ rows, ∃ slot, variableOf heaps row = .ok slot) (next : Option LocalScopeRow)
    (row : LocalScopeRow) : ∃ scope, scopeOf heaps rows next row = .ok scope := by
  have hown (first stop : Nat) :
      ∀ slot ∈ (rows.extract first stop).toList, ∃ value, variableOf heaps slot = .ok value := by
    intro slot hslot
    obtain ⟨k, _, rfl⟩ := Array.mem_extract_iff_getElem.mp (Array.mem_toList_iff.mp hslot)
    exact hslots _ (Array.getElem_mem _)
  obtain ⟨slots, hread⟩ := exists_list_mapM (hown (row.variableList.toNat - 1) _)
  exact ⟨_, bind_eq_ok_iff.mpr ⟨slots, hread, rfl⟩⟩

theorem size_foldl_addSource (entries : List (CustomInfoRow × InfoRecord))
    (documents : Array Document) :
    (entries.foldl (fun documents entry => addSource documents entry.1 entry.2) documents).size =
      documents.size := by
  induction entries generalizing documents with
  | nil => rfl
  | cons entry entries ih =>
    rw [List.foldl_cons, ih, addSource]
    split
    · split
      · exact Array.size_modify ..
      · rfl
    · rfl

/-- The entries for all rows of a stream, with their numbers. -/
theorem exists_entries {stream : TablesStream} (hholds : stream.Holds tables)
    (hresolved : tables.IsResolved) :
    ∃ documents methods localScopes importScopes info,
      (stream.rows DocumentRow).mapM (documentOf tables.heaps) = .ok documents ∧
      (stream.rows MethodDebugRow).mapM (methodOf tables.heaps) = .ok methods ∧
      ((stream.rows LocalScopeRow).zipIdx.mapM fun (row, index) => scopeOf tables.heaps
        (stream.rows LocalVariableRow) (stream.rows LocalScopeRow)[index + 1]? row) =
          .ok localScopes ∧
      (stream.rows ImportScopeRow).mapM (importScopeOf tables.heaps) = .ok importScopes ∧
      (stream.rows CustomInfoRow).mapM (infoOfRow tables.heaps) = .ok info ∧
      documents.size = tables.documents.size ∧
      List.Forall₂ (fun row method => methodOf tables.heaps row = .ok method)
        (stream.rows MethodDebugRow).toList methods.toList ∧
      localScopes.size = tables.localScopes.size ∧
      importScopes.size = tables.importScopes.size ∧ info.size = tables.customInfo.size := by
  have hdocumentRows : ∀ row ∈ stream.rows DocumentRow,
      ∃ document, documentOf tables.heaps row = .ok document := by
    rw [hholds.documents]
    exact forall_mem_numbered (fun rid (row : DocumentRow) => { row with rid })
      hresolved.documents
  have hmethodRows : ∀ row ∈ stream.rows MethodDebugRow,
      ∃ method, methodOf tables.heaps row = .ok method := by
    rw [hholds.methods]
    exact forall_mem_numbered (fun rid (row : MethodDebugRow) => { row with rid })
      hresolved.methods
  have hvariableRows : ∀ row ∈ stream.rows LocalVariableRow,
      ∃ slot, variableOf tables.heaps row = .ok slot := by
    rw [hholds.localVariables]
    exact forall_mem_numbered (fun rid (row : LocalVariableRow) => { row with rid })
      hresolved.localVariables
  have himportRows : ∀ row ∈ stream.rows ImportScopeRow,
      ∃ scope, importScopeOf tables.heaps row = .ok scope := by
    rw [hholds.importScopes]
    exact forall_mem_numbered (fun rid (row : ImportScopeRow) => { row with rid })
      hresolved.importScopes
  have hinfoRows : ∀ row ∈ stream.rows CustomInfoRow,
      ∃ record, infoOfRow tables.heaps row = .ok record := by
    rw [hholds.customInfo]
    exact forall_mem_numbered (fun rid (row : CustomInfoRow) => { row with rid })
      hresolved.customInfo
  have hscopeRows : ∀ entry ∈ (stream.rows LocalScopeRow).zipIdx, ∃ scope,
      scopeOf tables.heaps (stream.rows LocalVariableRow)
        (stream.rows LocalScopeRow)[entry.2 + 1]? entry.1 = .ok scope :=
    fun entry _ => exists_scopeOf hvariableRows _ entry.1
  obtain ⟨documents, hdocuments, hdocumentsOf⟩ := exists_array_mapM hdocumentRows
  obtain ⟨methods, hmethods, hmethodsOf⟩ := exists_array_mapM hmethodRows
  obtain ⟨localScopes, hlocalScopes, hlocalScopesOf⟩ := exists_array_mapM hscopeRows
  obtain ⟨importScopes, himportScopes, himportScopesOf⟩ := exists_array_mapM himportRows
  obtain ⟨info, hinfo, hinfoOf⟩ := exists_array_mapM hinfoRows
  refine ⟨documents, methods, localScopes, importScopes, info, hdocuments, hmethods,
    hlocalScopes, himportScopes, hinfo, ?_, hmethodsOf, ?_, ?_, ?_⟩
  · simpa [hholds.documents] using hdocumentsOf.length_eq.symm
  · simpa [hholds.localScopes] using hlocalScopesOf.length_eq.symm
  · simpa [hholds.importScopes] using himportScopesOf.length_eq.symm
  · simpa [hholds.customInfo] using hinfoOf.length_eq.symm

/-- A container of tables that refer to what their heaps hold is read, with an entry for each row,
and with the id, the entry point and the row counts of the type system that it was written for. -/
theorem exists_ofBytes {id : ContentId} {entryPoint : Token} {typeSystemRows : RowCounts}
    {data : Bytes} (hdata : tables.encode id entryPoint typeSystemRows = .ok data)
    (hsize : data.size < 0x100000000) (hresolved : tables.IsResolved) :
    ∃ container, ofBytes data = .ok container ∧ container.id = id ∧
      container.entryPoint = entryPoint ∧
      container.typeSystemRows = TablesStream.typeSystemCounts typeSystemRows ∧
      container.Shows tables := by
  obtain ⟨root, form, hroot, hhead, hstrings, hguids, hblobs, htables, hform, hfits⟩ :=
    DebugTables.exists_streams hdata hsize
  -- The reader has only the row counts that the debug stream names, those of the type system.
  obtain ⟨stream, hstream, hlocates⟩ :=
    DebugTables.read_encodeStream hform hfits (TablesStream.typeSystemCounts_self typeSystemRows)
  have hholds := hlocates.holds hresolved.parents
  obtain ⟨hstringHeap, hblobHeap, hguidHeap⟩ := hresolved.heaps_eq
  obtain ⟨documents, methods, localScopes, importScopes, info, hdocuments, hmethods,
    hlocalScopes, himportScopes, hinfo, hdocumentsSize, hmethodsOf, hlocalScopesSize,
    himportScopesSize, hinfoSize⟩ := exists_entries hholds hresolved
  refine ⟨{
    id, entryPoint
    typeSystemRows := TablesStream.typeSystemCounts typeSystemRows
    tables := stream.summary
    documents := ((stream.rows CustomInfoRow).zip info).foldl
      (fun documents entry => addSource documents entry.1 entry.2) documents
    methods, localScopes, importScopes
    machines := (stream.rows StateMachineRow).map machineOf
    info }, ?_, rfl, rfl, rfl, ?_⟩
  · unfold ofBytes
    refine bind_eq_ok_iff.mpr ⟨root, hroot, ?_⟩
    simp only [streamName, hhead, htables, hstrings, hblobs, hguids, Option.orElse_some,
      Option.getD_some]
    refine bind_eq_ok_iff.mpr ⟨_, hstringHeap, bind_eq_ok_iff.mpr ⟨_, hblobHeap, ?_⟩⟩
    refine bind_eq_ok_iff.mpr ⟨_, hguidHeap, ?_⟩
    refine bind_eq_ok_iff.mpr ⟨_, (takes_readHead id entryPoint typeSystemRows).last.eval_eq, ?_⟩
    refine bind_eq_ok_iff.mpr ⟨stream, hstream, bind_eq_ok_iff.mpr ⟨documents, hdocuments, ?_⟩⟩
    refine bind_eq_ok_iff.mpr ⟨methods, hmethods, ?_⟩
    refine bind_eq_ok_iff.mpr ⟨localScopes, hlocalScopes, ?_⟩
    refine bind_eq_ok_iff.mpr ⟨importScopes, himportScopes, ?_⟩
    exact bind_eq_ok_iff.mpr ⟨info, hinfo, rfl⟩
  · constructor
    · rw [← Array.foldl_toList, size_foldl_addSource, hdocumentsSize]
    · rw [← hholds.methods]
      exact hmethodsOf
    · exact hlocalScopesSize
    · exact himportScopesSize
    · simp [hholds.stateMachines]
    · exact hinfoSize

end Container

end PortablePdb
