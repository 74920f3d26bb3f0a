import PortablePdb.Proofs.Additions

namespace PortablePdb

open DebugBuilder

/-- Whether an error tells that rows are out of order. -/
def Error.isOutOfOrder : Error → Bool
  | .malformed (.localScopeOrder _ _) | .malformed (.stateMachineOrder _ _)
  | .malformed (.customInfoOrder _ _) => true
  | _ => false

namespace LocalScopeRow

/-- A row has the fields of a scope. -/
structure Shows (row : LocalScopeRow) (scope : AddedScope) : Prop where
  method : row.method = scope.method
  importScope : row.importScope = scope.importScope
  startOffset : row.startOffset = scope.startOffset
  length : row.length = scope.length
  constantList : row.constantList = 1

/-- One scope comes before another one: by their methods, then by their starts, and then the longer
scope first. -/
def Precedes (first second : LocalScopeRow) : Prop :=
  first.method < second.method ∨ first.method = second.method ∧
    (first.startOffset < second.startOffset ∨ first.startOffset = second.startOffset ∧
      second.length < first.length)

end LocalScopeRow

namespace DebugTables

variable {tables : DebugTables}

/-- The rows of all tables are numbered from one on. -/
structure AllNumbered (tables : DebugTables) : Prop where
  documents : IsNumbered (·.rid) tables.documents
  methods : IsNumbered (·.rid) tables.methods
  localScopes : IsNumbered (·.rid) tables.localScopes
  localVariables : IsNumbered (·.rid) tables.localVariables
  localConstants : IsNumbered (·.rid) tables.localConstants
  importScopes : IsNumbered (·.rid) tables.importScopes
  stateMachines : IsNumbered (·.rid) tables.stateMachines
  customInfo : IsNumbered (·.rid) tables.customInfo

/-- The scopes of tables are some scopes with their variables. The variables of a scope start behind
those of the scopes before it. -/
structure HoldsScopes (tables : DebugTables) (scopes : List AddedScope) : Prop where
  rows : List.Forall₂ LocalScopeRow.Shows tables.localScopes.toList scopes
  slots : List.Forall₂ (fun row slot => row.Stores tables.strings slot)
    tables.localVariables.toList (scopes.flatMap (·.sortedSlots))
  variableList : ∀ i (hi : i < tables.localScopes.size),
    tables.localScopes[i].variableList.toNat =
      ((scopes.take i).flatMap (·.sortedSlots)).length + 1

/-- Tables have the records that were added, for a number of methods. -/
structure Tabulates (tables : DebugTables) (added : Additions) (count : UInt32) : Prop where
  localScopes : ∃ scopes, scopes.Perm added.scopes ∧ tables.HoldsScopes scopes
  precedes : tables.localScopes.toList.Pairwise LocalScopeRow.Precedes
  stateMachines : IsSortedBy Prod.fst added.machines
    (tables.stateMachines.toList.map fun row => (row.moveNextMethod, row.kickoffMethod))
  parents : ∀ info ∈ added.infos,
    info.1.encode .hasCustomDebugInformation = .ok info.1.infoKey
  customInfo : ∃ infos, IsSortedBy (fun info => info.1.infoKey) added.infos infos ∧
    List.Forall₂ (StoresInfo tables.blobs tables.guids)
      (tables.customInfo.toList.map fun row => (row.parent, row.kind, row.value)) infos
  size_methods : tables.methods.size = count.toNat
  methods : ∀ row ∈ tables.methods, StoresSubmission tables.blobs
    (row.document, row.sequencePoints) (added.submissions.lookup row.rid)
  importScopes : IsImportTree tables.importScopes
  numbered : tables.AllNumbered

end DebugTables

namespace HeapBuilders

variable {heaps : HeapBuilders}

/-- Padding heaps adds bytes to them. -/
theorem growsTo_padded (heaps : HeapBuilders) : heaps.GrowsTo heaps.padded where
  strings hsound := ⟨hsound.grow _, _, rfl⟩
  blobs hsound := ⟨⟨hsound.empty_at.grow _,
    fun value index hfound => (hsound.found value index hfound).grow _⟩, _, rfl⟩
  guids hsound := ⟨hsound, #[], by simp [padded]⟩

end HeapBuilders

namespace DebugBuilder

variable {builder : DebugBuilder} {added : Additions} {count : UInt32} {tables : DebugTables}

theorem Finishes.size_methods (hfinishes : builder.Finishes count tables) :
    tables.methods.size = count.toNat := by
  rw [hfinishes.methods, methodRows, Array.size_ofFn]

theorem isNumbered_methodRows (builder : DebugBuilder) (count : UInt32) :
    IsNumbered (·.rid) (builder.methodRows count) := by
  intro i hi
  have hlt : i < count.toNat := by simpa [methodRows] using hi
  have hcount := count.toNat_lt
  simp only [methodRows, Array.getElem_ofFn, Nat.toUInt32_eq, UInt32.toNat_ofNat']
  omega

/-- All finished tables are numbered if those of documents and imports are. -/
theorem Finishes.allNumbered (hfinishes : builder.Finishes count tables)
    (hdocuments : IsNumbered (·.rid) builder.documents)
    (himports : IsNumbered (·.rid) builder.importScopes) : tables.AllNumbered where
  documents := hfinishes.documents ▸ hdocuments
  methods := hfinishes.methods ▸ isNumbered_methodRows builder count
  localScopes := hfinishes.lays.numbersScopes.numbered
  localVariables := hfinishes.lays.numbersSlots.numbered
  localConstants := hfinishes.localConstants ▸ isNumbered_empty _
  importScopes := hfinishes.importScopes ▸ himports
  stateMachines := hfinishes.numbersMachines.numbered
  customInfo := by
    obtain ⟨_, _, hnumbers⟩ := hfinishes.numbersInfo
    exact hnumbers.numbered

/-- Whether a scope may come right before another one. -/
def AddedScope.le (first second : AddedScope) : Bool :=
  DebugTables.scopeLE first.row second.row

/-- Finished scopes are the scopes of the builder in their order. -/
theorem Finishes.holdsScopes (hfinishes : builder.Finishes count tables) {scopes : List AddedScope}
    (hscopes : List.Forall₂ (StoresScope tables.strings) builder.localScopes.toList scopes) :
    tables.HoldsScopes (scopes.mergeSort AddedScope.le) := by
  have hsorted := forall₂_mergeSort (r := fun a b => DebugTables.scopeLE a.1 b.1)
    (s := AddedScope.le) hscopes
    fun a b a' b' ha ha' => by rw [ha.row_eq, ha'.row_eq, AddedScope.le]
  exact {
    rows := by
      apply forall₂_trans hfinishes.lays.numbersScopes.records hsorted
      intro row record scope hrow hscope
      rw [hrow, hscope.row_eq]
      exact ⟨rfl, rfl, rfl, rfl, rfl⟩
    slots := by
      apply forall₂_trans hfinishes.lays.numbersSlots.records
        (List.rel_flatMap hsorted fun record scope hscope => hscope.slots)
      intro row record slot hrow hslot
      rw [hrow]
      exact ⟨hslot.attributes, hslot.index, hslot.name⟩
    variableList := by
      intro i hi
      have hbefore := List.rel_flatMap (List.forall₂_take i hsorted)
        fun record scope hscope => hscope.slots
      rw [hfinishes.lays.variableList i hi]
      exact congrArg (· + 1) hbefore.length_eq }

/-- Sorted scopes with different methods or ranges come strictly one before the other. -/
theorem precedes_of_distinct {scopes : List AddedScope}
    (hdistinct : scopes.Pairwise fun a b => a.key ≠ b.key)
    (hscopes : tables.HoldsScopes (scopes.mergeSort AddedScope.le)) :
    tables.localScopes.toList.Pairwise LocalScopeRow.Precedes := by
  have hordered : (scopes.mergeSort AddedScope.le).Pairwise fun a b => a.le b = true :=
    List.pairwise_mergeSort (fun a b c => DebugTables.scopeLE_trans a.row b.row c.row)
      (fun a b => DebugTables.scopeLE_total a.row b.row) scopes
  have hsorted : (scopes.mergeSort AddedScope.le).Pairwise fun a b => a.key ≠ b.key :=
    (List.mergeSort_perm _ _).symm.pairwise hdistinct fun hne => hne.symm
  apply pairwise_of_forall₂ hscopes.rows (hordered.and hsorted)
  rintro row scope other next hrow hother ⟨hle, hne⟩
  rw [LocalScopeRow.Precedes, hrow.method, hrow.startOffset, hrow.length, hother.method,
    hother.startOffset, hother.length]
  simp only [AddedScope.le, AddedScope.row, DebugTables.scopeLE_iff] at hle
  refine hle.imp_right fun hsame => ⟨hsame.1, hsame.2.imp_right fun hstart => ⟨hstart.1, ?_⟩⟩
  refine UInt32.lt_of_le_of_ne hstart.2 fun hlength => hne ?_
  rw [AddedScope.key, AddedScope.key, hsame.1, hstart.1, hlength]

/-- Tables that were finished have what the builder holds. -/
theorem Holds.tabulates (hholds : builder.Holds added)
    (hfinishes : builder.Finishes count tables) : tables.Tabulates added count := by
  have hpadded := hholds.grow (HeapBuilders.growsTo_padded builder.heaps)
  obtain ⟨hkeys, hinfo⟩ := sortInfo_eq_mergeSort hfinishes.customInfo
  have hrecords : List.Forall₂ (StoresScope tables.strings) builder.localScopes.toList
      added.scopes := by
    rw [hfinishes.strings]
    exact hpadded.localScopes
  have hscopes := hfinishes.holdsScopes hrecords
  exact {
    localScopes := ⟨_, List.mergeSort_perm _ _, hscopes⟩
    precedes := precedes_of_distinct hholds.distinct hscopes
    stateMachines := by
      rw [hfinishes.stateMachines, hholds.machines]
      exact isSortedBy_mergeSort _ _
    parents := by
      intro info hmem
      obtain ⟨key, hkey⟩ := hholds.parents info hmem
      rw [CodedIndex.infoKey_eq hkey, hkey]
    customInfo := by
      refine ⟨_, isSortedBy_mergeSort _ _, ?_⟩
      rw [hinfo, hfinishes.blobs, hfinishes.guids]
      apply forall₂_mergeSort hpadded.customInfo
      intro record info other next hrecord hother
      rw [hrecord.parent, hother.parent]
    size_methods := hfinishes.size_methods
    methods := by
      intro row hrow
      rw [hfinishes.methods] at hrow
      obtain ⟨rid, rfl⟩ := mem_methodRows hrow
      rw [hfinishes.blobs]
      exact hpadded.methods rid
    importScopes := hfinishes.importScopes ▸ hholds.importScopes
    numbered := hfinishes.allNumbered hholds.documents hholds.importScopes.numbered }

theorem Holds.mem_submissions (hholds : builder.Holds added) (row : UInt32) :
    builder.methods.contains row = true ↔ row ∈ added.submissions.map (·.1) := by
  rw [hholds.hasMethod, List.lookup_isSome_iff, List.mem_map]
  constructor
  · rintro ⟨submission, hmem, hsame⟩
    exact ⟨submission, hmem, (eq_of_beq hsame).symm⟩
  · rintro ⟨submission, hmem, rfl⟩
    exact ⟨submission, hmem, beq_self_eq_true _⟩

theorem Holds.mem_scopes (hholds : builder.Holds added) (row : UInt32) :
    (∃ scope ∈ builder.localScopes, scope.1.method = row) ↔ row ∈ added.scopes.map (·.method) := by
  constructor
  · rintro ⟨record, hrecord, rfl⟩
    obtain ⟨scope, hscope, hstores⟩ :=
      exists_of_forall₂ hholds.localScopes (Array.mem_toList_iff.mpr hrecord)
    rw [hstores.row_eq]
    exact List.mem_map_of_mem hscope
  · intro hrow
    obtain ⟨scope, hscope, rfl⟩ := List.mem_map.mp hrow
    obtain ⟨record, hrecord, hstores⟩ := exists_of_forall₂ hholds.localScopes.flip hscope
    refine ⟨record, Array.mem_toList_iff.mp hrecord, ?_⟩
    rw [hstores.row_eq, AddedScope.row]

/-- What keeps a history from having tables: a method out of range, or a table that is too long. -/
theorem Holds.finish_eq_error (hholds : builder.Holds added) {error : Error}
    (herror : builder.finish count = .error error) :
    error = .malformed .rowRange ∨ ∃ row, count < row ∧ error = .invalidMethod (.methodDef row) ∧
      (row ∈ added.submissions.map (·.1) ∨ row ∈ added.scopes.map (·.method)) := by
  obtain ⟨row, hlt, rfl, hrecord⟩ | ⟨_, hrange | ⟨record, hrecord, hparent⟩⟩ :=
    DebugBuilder.finish_eq_error herror
  · refine .inr ⟨row, hlt, rfl, ?_⟩
    rw [← hholds.mem_submissions, ← hholds.mem_scopes]
    exact hrecord.imp_right And.right
  · exact .inl hrange
  · obtain ⟨info, hinfo, hstores⟩ :=
      exists_of_forall₂ hholds.customInfo (Array.mem_toList_iff.mpr hrecord)
    obtain ⟨key, hkey⟩ := hholds.parents info hinfo
    rw [hstores.parent, hkey] at hparent
    cases hparent

/-- Whatever operations are carried out, finished tables have the records that were added in their
order and with their numbers, and the order is never what keeps tables from being finished. -/
theorem finish_tabulates (operations : List Operation) (count : UInt32) :
    (∀ tables, (ofOperations operations).finish count = .ok tables →
      tables.Tabulates (additions (history operations)) count) ∧
    ∀ error, (ofOperations operations).finish count = .error error →
      error.isOutOfOrder = false := by
  have hholds := holds_ofOperations operations
  constructor
  · intro tables hfinish
    exact hholds.tabulates (finishes_of_finish hfinish)
  · intro error herror
    obtain rfl | ⟨row, _, rfl, _⟩ := hholds.finish_eq_error herror
    · rfl
    · rfl

/-- The tables of the recorded history, with each kind of record in order. -/
def recordedTables : DebugTables where
  methods := #[⟨1, 0, 0⟩, ⟨2, 0, 0⟩]
  localScopes := #[⟨1, 1, 1, 1, 1, 0, 12⟩, ⟨2, 1, 1, 1, 1, 4, 4⟩, ⟨3, 2, 1, 1, 1, 0, 8⟩]
  importScopes := #[⟨1, 0, 0⟩]
  stateMachines := #[⟨1, 1, 2⟩, ⟨2, 2, 1⟩]
  customInfo := #[⟨1, ⟨.methodDef, 1⟩, 2, 3⟩, ⟨2, ⟨.methodDef, 2⟩, 1, 1⟩]
  strings := #[0, 0, 0, 0]
  blobs := #[0, 1, 7, 1, 8, 0, 0, 0]
  guids := CustomKind.asyncStepping.guid.toBytes ++ CustomKind.hoistedLocalScopes.guid.toBytes

theorem finish_recorded {blobs : BlobHeap.Builder} {guids : GuidHeap.Builder}
    (hblobs : blobs.Lists [#[7], #[8]])
    (hguids : guids.Lists [CustomKind.asyncStepping.guid, CustomKind.hoistedLocalScopes.guid]) :
    (recordedBuilder blobs guids).finish 2 = .ok recordedTables := by
  have hexcess : (recordedBuilder blobs guids).excessMethod? 2 = none := by
    simp [excessMethod?, recordedBuilder]
  have hmethods : (recordedBuilder blobs guids).methodRows 2 = recordedTables.methods := by
    simp [methodRows, recordedBuilder, recordedTables, Array.ofFn_succ]
  have hscopes : (recordedBuilder blobs guids).localScopes.toList.mergeSort
      (fun a b => DebugTables.scopeLE a.1 b.1) = [(⟨0, 1, 1, 0, 0, 0, 12⟩, []),
        (⟨0, 1, 1, 0, 0, 4, 4⟩, []), (⟨0, 2, 1, 0, 0, 0, 8⟩, [])] := by
    simp [recordedBuilder, List.mergeSort, DebugTables.scopeLE]
  have hmachines : (recordedBuilder blobs guids).machines.toList.mergeSort
      (fun a b => a.1 ≤ b.1) = [(1, 2), (2, 1)] := by
    simp [recordedBuilder, List.mergeSort]
  have hinfo : sortInfo (recordedBuilder blobs guids).customInfo.toList =
      .ok [(⟨.methodDef, 1⟩, 2, 3), (⟨.methodDef, 2⟩, 1, 1)] := by
    refine bind_eq_ok_iff.mpr
      ⟨[(64, ⟨.methodDef, 2⟩, 1, 1), (32, ⟨.methodDef, 1⟩, 2, 3)], rfl, ?_⟩
    rw [pure_eq_ok_iff]
    simp [List.mergeSort]
  have hblobBytes : blobs.data.pad4 = recordedTables.blobs := by
    rw [hblobs.data_eq]
    decide
  have hguidBytes : guids.data = recordedTables.guids := by
    rw [hguids.data_eq]
    rfl
  have hscopeRows := congrArg (numberScopes 2 · #[] #[]) hscopes
  have hmachineRows := congrArg (numberMachines · #[]) hmachines
  rw [finish_eq_ok hexcess hscopeRows hmachineRows hinfo rfl, hmethods,
    StringHeap.Builder.toBytes, BlobHeap.Builder.toBytes, GuidHeap.Builder.toBytes]
  simp only [recordedBuilder, hblobBytes, hguidBytes]
  rfl

/-- The tables have all that was recorded, and not the scope that was left out. -/
theorem finish_tabulates_recorded :
    (ofOperations (recorded ++ [recordedAgain])).finish 2 = .ok recordedTables ∧
      recordedTables.Tabulates {
        scopes := [⟨2, 1, 0, 8, []⟩, ⟨1, 1, 4, 4, []⟩, ⟨1, 1, 0, 12, []⟩]
        machines := [(2, 1), (1, 2)]
        infos := [(⟨.methodDef, 2⟩, .asyncStepping, #[7]),
          (⟨.methodDef, 1⟩, .hoistedLocalScopes, #[8])] } 2 := by
  obtain ⟨blobs, guids, hrecorded, hblobs, hguids⟩ := perform_recorded
  have hperform := perform_append recorded [recordedAgain] empty
  simp only [perform, hrecorded, step_recordedAgain] at hperform
  have hfinish : (ofOperations (recorded ++ [recordedAgain])).finish 2 = .ok recordedTables := by
    rw [ofOperations, hperform]
    exact finish_recorded hblobs hguids
  have htabulates := (finish_tabulates (recorded ++ [recordedAgain]) 2).1 _ hfinish
  rw [history, hperform] at htabulates
  exact ⟨hfinish, htabulates⟩

/-- The tables of a history that only adds a state machine, for a module with one method. -/
theorem finish_machine :
    (ofOperations [.addStateMachine (.methodDef 2) (.methodDef 1)]).finish 1 = .ok {
      methods := #[⟨1, 0, 0⟩]
      importScopes := #[⟨1, 0, 0⟩]
      stateMachines := #[⟨1, 2, 1⟩]
      strings := #[0, 0, 0, 0]
      blobs := #[0, 0, 0, 0] } := by
  have hoperations : ofOperations [.addStateMachine (.methodDef 2) (.methodDef 1)] =
      { empty with machines := #[(2, 1)] } := rfl
  have hexcess : excessMethod? { empty with machines := #[(2, 1)] } 1 = none := by
    simp [excessMethod?, empty]
  have hmethods : methodRows { empty with machines := #[(2, 1)] } 1 = #[⟨1, 0, 0⟩] := by
    simp [methodRows, empty, Array.ofFn_succ]
  have hmachines : numberMachines ([(2, 1)].mergeSort fun a b => a.1 ≤ b.1) #[] =
      .ok #[⟨1, 2, 1⟩] := by
    rw [List.mergeSort_singleton]
    rfl
  have hscopes : numberScopes 1 (([] : List (LocalScopeRow × List LocalVariableRow)).mergeSort
      fun a b => DebugTables.scopeLE a.1 b.1) #[] #[] = .ok (#[], #[]) := by
    rw [List.mergeSort_nil]
    rfl
  rw [hoperations, finish_eq_ok hexcess hscopes hmachines sortInfo_nil rfl, hmethods]
  rfl

theorem finish_of_excess {row : UInt32} (hrow : builder.methods.contains row = true)
    (hlt : count < row) : ∃ other, count < other ∧
      builder.finish count = .error (.invalidMethod (.methodDef other)) := by
  cases hexcess : builder.excessMethod? count with
  | none => exact absurd hlt (UInt32.not_lt.mpr (excessMethod?_eq_none hexcess hrow))
  | some other =>
    refine ⟨other, (excessMethod?_eq_some hexcess).1, ?_⟩
    rw [finish, hexcess]
    rfl

/-- Tables cannot be finished if a submission or a scope has a method past those of the module, and
nothing else is refused for its method: state machines and custom debug information are not looked
at. What is finished has methods of the module in its scopes. -/
theorem finish_checks_methods (operations : List Operation) (count : UInt32) :
    (∀ row ∈ (additions (history operations)).submissions.map (·.1), count < row →
      ∃ other, count < other ∧
        (ofOperations operations).finish count = .error (.invalidMethod (.methodDef other))) ∧
    (∀ row ∈ (additions (history operations)).scopes.map (·.method), count < row →
      (ofOperations operations).finish count = .error (.malformed .rowRange) ∨
        ∃ other, count < other ∧
          (ofOperations operations).finish count = .error (.invalidMethod (.methodDef other))) ∧
    (∀ method, (ofOperations operations).finish count = .error (.invalidMethod method) →
      ∃ row, count < row ∧ method = .methodDef row ∧
        (row ∈ (additions (history operations)).submissions.map (·.1) ∨
          row ∈ (additions (history operations)).scopes.map (·.method))) ∧
    ∀ tables, (ofOperations operations).finish count = .ok tables →
      (∀ row ∈ tables.methods, row.rid ≠ 0 ∧ row.rid ≤ count) ∧
      ∀ row ∈ tables.localScopes, row.method ≠ 0 ∧ row.method ≤ count := by
  have hholds := holds_ofOperations operations
  refine ⟨?_, ?_, ?_, ?_⟩
  · intro row hrow hlt
    exact finish_of_excess ((hholds.mem_submissions row).mpr hrow) hlt
  · intro row hrow hlt
    cases hfinish : (ofOperations operations).finish count with
    | error error =>
      obtain rfl | ⟨other, hother, rfl, _⟩ := hholds.finish_eq_error hfinish
      · exact .inl rfl
      · exact .inr ⟨other, hother, rfl⟩
    | ok tables =>
      obtain ⟨record, hrecord, rfl⟩ := (hholds.mem_scopes row).mpr hrow
      have hle := (finishes_of_finish hfinish).lays.method_le record
        ((List.mergeSort_perm _ _).mem_iff.mpr (Array.mem_toList_iff.mpr hrecord))
      exact absurd hlt (UInt32.not_lt.mpr hle)
  · intro method hfinish
    obtain hrange | ⟨row, hlt, hmethod, hrow⟩ := hholds.finish_eq_error hfinish
    · cases hrange
    · exact ⟨row, hlt, Error.invalidMethod.inj hmethod, hrow⟩
  · intro tables hfinish
    have hfinishes := finishes_of_finish hfinish
    have htabulates := hholds.tabulates hfinishes
    constructor
    · intro row hrow
      obtain ⟨i, hi, rfl⟩ := Array.mem_iff_getElem.mp hrow
      have hrid : tables.methods[i].rid.toNat = i + 1 := htabulates.numbered.methods i hi
      have hsize := htabulates.size_methods
      rw [ne_eq, ← UInt32.toNat_inj, UInt32.le_iff_toNat_le]
      simp only [UInt32.toNat_zero]
      omega
    · intro row hrow
      obtain ⟨record, hrecord, hbecomes⟩ := exists_of_forall₂
        hfinishes.lays.numbersScopes.records (Array.mem_toList_iff.mpr hrow)
      have hmem := Array.mem_toList_iff.mp ((List.mergeSort_perm _ _).mem_iff.mp hrecord)
      obtain ⟨scope, hscope, hmethod⟩ :=
        List.mem_map.mp ((hholds.mem_scopes record.1.method).mp ⟨record, hmem, rfl⟩)
      rw [hbecomes]
      exact ⟨hmethod ▸ hholds.method_ne_zero scope hscope,
        hfinishes.lays.method_le record hrecord⟩

/-- A state machine may be run by a method past the only one of a module. -/
theorem finish_keeps_machine :
    history [.addStateMachine (.methodDef 2) (.methodDef 1)] =
        [⟨.addStateMachine (.methodDef 2) (.methodDef 1), .ok .done⟩] ∧
      ∃ tables, (ofOperations [.addStateMachine (.methodDef 2) (.methodDef 1)]).finish 1 =
        .ok tables ∧ ∃ row ∈ tables.stateMachines, 1 < row.moveNextMethod :=
  ⟨rfl, _, finish_machine, ⟨1, 2, 1⟩, by simp, by decide⟩

end DebugBuilder

end PortablePdb
