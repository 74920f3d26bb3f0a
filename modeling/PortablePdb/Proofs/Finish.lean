import PortablePdb.Proofs.Numbering
import PortablePdb.Proofs.References

namespace PortablePdb

/-- Sorting leaves elements that may stand in any order in the order that they had. -/
theorem filter_mergeSort {α : Type} {le : α → α → Bool}
    (htrans : ∀ a b c, le a b = true → le b c = true → le a c = true)
    (htotal : ∀ a b, (le a b || le b a) = true) {p : α → Bool} {xs : List α}
    (hsame : ∀ a ∈ xs, ∀ b ∈ xs, p a = true → p b = true → le a b = true) :
    (xs.mergeSort le).filter p = xs.filter p := by
  have hpairwise : (xs.filter p).Pairwise fun a b => le a b = true := by
    apply List.pairwise_of_forall_mem_list
    intro a ha b hb
    obtain ⟨hmemA, hpA⟩ := List.mem_filter.mp ha
    obtain ⟨hmemB, hpB⟩ := List.mem_filter.mp hb
    exact hsame a hmemA b hmemB hpA hpB
  -- What the filter keeps is in order already, so it is a sublist of the sorted list; as long as
  -- the other side, it is all of it.
  have hsublist := (List.sublist_mergeSort htrans htotal hpairwise List.filter_sublist).filter p
  have hlength := ((List.mergeSort_perm xs le).filter p).length_eq
  rw [List.filter_filter] at hsublist
  simp only [Bool.and_self] at hsublist
  exact (hsublist.eq_of_length hlength.symm).symm

namespace DebugBuilder

theorem sortInfo_nil : sortInfo [] = .ok [] := by
  simp [sortInfo, pure, Except.pure, bind, Except.bind]

/-- Records are sorted by the numbers of their parents. -/
theorem sortInfo_eq {records sorted : List (CodedIndex × UInt32 × UInt32)}
    (hsorted : sortInfo records = .ok sorted) :
    ∃ keyed : List (UInt32 × CodedIndex × UInt32 × UInt32), keyed.map (·.2) = records ∧
      (∀ entry ∈ keyed, entry.2.1.encode .hasCustomDebugInformation = .ok entry.1) ∧
      sorted = (keyed.mergeSort fun a b => a.1 ≤ b.1).map (·.2) := by
  obtain ⟨keyed, hkeyed, hsorted⟩ := bind_eq_ok_iff.mp hsorted
  have hentries : List.Forall₂ (fun record entry => entry.2 = record ∧
      record.1.encode .hasCustomDebugInformation = .ok entry.1) records keyed := by
    refine (forall₂_of_list_mapM hkeyed).imp fun record entry hentry => ?_
    obtain ⟨key, hkey, hentry⟩ := bind_eq_ok_iff.mp hentry
    rw [← pure_eq_ok_iff.mp hentry]
    exact ⟨rfl, hkey⟩
  refine ⟨keyed, ?_, ?_, (pure_eq_ok_iff.mp hsorted).symm⟩
  · refine List.forall₂_eq_eq_eq ▸ ?_
    exact List.forall₂_map_left_iff.mpr (hentries.flip.imp fun _ _ hentry => hentry.1)
  · intro entry hmem
    obtain ⟨record, _, hrecord⟩ := exists_of_forall₂ hentries.flip hmem
    rw [hrecord.1]
    exact hrecord.2

theorem perm_sortInfo {records sorted : List (CodedIndex × UInt32 × UInt32)}
    (hsorted : sortInfo records = .ok sorted) : sorted.Perm records := by
  obtain ⟨keyed, rfl, _, rfl⟩ := sortInfo_eq hsorted
  exact (List.mergeSort_perm keyed _).map _

/-- Records of one parent keep their order. -/
theorem filter_sortInfo {records sorted : List (CodedIndex × UInt32 × UInt32)}
    (hsorted : sortInfo records = .ok sorted) (parent : CodedIndex) :
    sorted.filter (·.1 == parent) = records.filter (·.1 == parent) := by
  obtain ⟨keyed, rfl, hkeys, rfl⟩ := sortInfo_eq hsorted
  rw [List.filter_map, List.filter_map]
  congr 1
  apply filter_mergeSort
  · intro a b c hab hbc
    simp only [decide_eq_true_eq] at *
    exact UInt32.le_trans hab hbc
  · intro a b
    simpa using UInt32.le_total a.1 b.1
  · intro a ha b hb hsameA hsameB
    have hkeyA := hkeys a ha
    have hkeyB := hkeys b hb
    simp only [Function.comp_apply, beq_iff_eq] at hsameA hsameB
    rw [hsameA] at hkeyA
    rw [hsameB, hkeyA] at hkeyB
    simp [Except.ok.inj hkeyB]

theorem methodRows_getElem? (builder : DebugBuilder) {count : UInt32} {i : Nat}
    (hi : i < count.toNat) :
    (builder.methodRows count)[i]? = some {
      rid := (i + 1).toUInt32
      document := (builder.methods.getD (i + 1).toUInt32 (0, 0)).1
      sequencePoints := (builder.methods.getD (i + 1).toUInt32 (0, 0)).2 } := by
  simp [methodRows, hi]

theorem mem_methodRows {builder : DebugBuilder} {count : UInt32} {row : MethodDebugRow}
    (hrow : row ∈ builder.methodRows count) :
    ∃ rid, row = {
      rid
      document := (builder.methods.getD rid (0, 0)).1
      sequencePoints := (builder.methods.getD rid (0, 0)).2 } := by
  obtain ⟨i, hi, rfl⟩ := Array.mem_iff_getElem.mp hrow
  have hcount : i < count.toNat := by simpa [methodRows] using hi
  have hget := builder.methodRows_getElem? hcount
  rw [Array.getElem?_eq_getElem hi] at hget
  exact ⟨_, Option.some.inj hget⟩

theorem IsClosed.hasPoints_getD {builder : DebugBuilder} (hclosed : builder.IsClosed)
    (row : UInt32) : HasPoints builder.heaps.blobs.data (builder.methods.getD row (0, 0)).1
      (builder.methods.getD row (0, 0)).2 := by
  rw [Std.HashMap.getD_eq_getD_getElem?]
  cases hentry : builder.methods[row]? with
  | none => exact .inl rfl
  | some entry => exact hclosed.methods row entry hentry

/-- What finished tables have of their builder. -/
structure Finishes (builder : DebugBuilder) (count : UInt32) (tables : DebugTables) : Prop where
  noExcess : builder.excessMethod? count = none
  documents : tables.documents = builder.documents
  methods : tables.methods = builder.methodRows count
  importScopes : tables.importScopes = builder.importScopes
  lays : Lays count (builder.localScopes.toList.mergeSort fun a b => DebugTables.scopeLE a.1 b.1)
    tables.localScopes tables.localVariables
  localConstants : tables.localConstants = #[]
  numbersMachines : Numbers (·.rid) BecomesMachine tables.stateMachines
    (builder.machines.toList.mergeSort fun a b => a.1 ≤ b.1)
  numbersInfo : ∃ sorted, sortInfo builder.customInfo.toList = .ok sorted ∧
    Numbers (·.rid) BecomesInfo tables.customInfo sorted
  strings : tables.strings = builder.heaps.strings.data.pad4
  blobs : tables.blobs = builder.heaps.blobs.data.pad4
  guids : tables.guids = builder.heaps.guids.data

theorem finishes_of_finish {builder : DebugBuilder} {count : UInt32} {tables : DebugTables}
    (hfinish : builder.finish count = .ok tables) : builder.Finishes count tables := by
  simp only [finish] at hfinish
  split at hfinish
  · cases hfinish
  · next hexcess =>
    obtain ⟨⟨localScopes, localVariables⟩, hscopes, hfinish⟩ := bind_eq_ok_iff.mp hfinish
    obtain ⟨stateMachines, hmachines, hfinish⟩ := bind_eq_ok_iff.mp hfinish
    obtain ⟨sorted, hsorted, hfinish⟩ := bind_eq_ok_iff.mp hfinish
    obtain ⟨customInfo, hinfo, hfinish⟩ := bind_eq_ok_iff.mp hfinish
    obtain ⟨_, _, hfinish⟩ := bind_eq_ok_iff.mp hfinish
    rw [← pure_eq_ok_iff.mp hfinish]
    exact {
      noExcess := Option.eq_none_iff_forall_ne_some.mpr hexcess
      documents := rfl
      methods := rfl
      importScopes := rfl
      lays := lays_of_numberScopes (lays_empty count) hscopes
      localConstants := rfl
      numbersMachines := numbers_of_numberMachines (numbers_empty _ _) hmachines
      numbersInfo := ⟨sorted, hsorted, numbers_of_numberInfo (numbers_empty _ _) hinfo⟩
      strings := rfl
      blobs := rfl
      guids := rfl }

namespace Finishes

variable {builder : DebugBuilder} {count : UInt32} {tables : DebugTables}

theorem stateMachines (hfinishes : builder.Finishes count tables) :
    tables.stateMachines.toList.map (fun row => (row.moveNextMethod, row.kickoffMethod)) =
      builder.machines.toList.mergeSort fun a b => a.1 ≤ b.1 :=
  hfinishes.numbersMachines.map_eq

theorem customInfo (hfinishes : builder.Finishes count tables) :
    sortInfo builder.customInfo.toList =
      .ok (tables.customInfo.toList.map fun row => (row.parent, row.kind, row.value)) := by
  obtain ⟨sorted, hsorted, hnumbers⟩ := hfinishes.numbersInfo
  rw [hsorted]
  exact congrArg Except.ok hnumbers.map_eq.symm

/-- Scopes without variables need no rows of variables. -/
theorem localVariables (hfinishes : builder.Finishes count tables)
    (hslots : ∀ scope ∈ builder.localScopes, scope.2 = []) : tables.localVariables = #[] := by
  have hlength := hfinishes.lays.numbersSlots.records.length_eq
  rw [List.flatMap_eq_nil_iff.mpr] at hlength
  · exact Array.toList_eq_nil_iff.mp (List.length_eq_zero_iff.mp hlength)
  · intro scope hscope
    apply hslots
    exact Array.mem_toList_iff.mp ((List.mergeSort_perm _ _).mem_iff.mp hscope)

end Finishes

end DebugBuilder

namespace Container

variable {heaps : Heaps}

theorem documentOf_eq {row : DocumentRow} {document : SourceDocument}
    (hrow : row.Describes heaps.blobs.data heaps.guids.data document) :
    documentOf heaps row = .ok {
      row := row.rid
      name := document.path
      hashAlgorithm := sha256Algorithm
      hash := document.hash.toArray
      language := csharpLanguage } := by
  obtain ⟨blob, hblob, hpath⟩ := hrow.name
  refine bind_eq_ok_iff.mpr ⟨blob, hblob.blobAt_eq, ?_⟩
  refine bind_eq_ok_iff.mpr ⟨document.path, hpath.decode_eq, ?_⟩
  refine bind_eq_ok_iff.mpr ⟨_, hrow.hashAlgorithm.guidAt_eq, ?_⟩
  refine bind_eq_ok_iff.mpr ⟨_, hrow.hash.blobAt_eq, ?_⟩
  exact bind_eq_ok_iff.mpr ⟨_, hrow.language.guidAt_eq, rfl⟩

theorem exists_methodOf {row : MethodDebugRow}
    (hrow : HasPoints heaps.blobs.data row.document row.sequencePoints) :
    ∃ method, methodOf heaps row = .ok method := by
  unfold methodOf
  by_cases hnone : row.sequencePoints = 0
  · rw [if_pos hnone]
    exact ⟨_, rfl⟩
  · obtain hzero | ⟨hdocument, signature, list, blob, hblob, hlist⟩ := hrow
    · exact absurd hzero hnone
    · rw [if_neg hnone, beq_eq_false_iff_ne.mpr hdocument]
      refine ⟨⟨.methodDef row.rid, row.document, some ⟨signature, none, list.map (·.stored)⟩⟩,
        bind_eq_ok_iff.mpr ⟨blob, hblob.blobAt_eq, ?_⟩⟩
      rw [SequencePoints.decode_of_encode hlist]
      rfl

/-- The scope of a row has the names that the row imports; only no names have no blob. -/
theorem importScopeOf_eq {row : ImportScopeRow} {names : List String}
    (hempty : heaps.blobs.data.HasAt 0 #[0]) (hrow : row.Imports heaps.blobs.data names) :
    importScopeOf heaps row = .ok ⟨row.rid, row.parent, names.map .importNamespace⟩ := by
  obtain ⟨blob, hblob, hnames⟩ := hrow
  unfold importScopeOf
  by_cases hnone : row.imports = 0
  · rw [hnone] at hblob
    rw [hblob.eq_empty hempty] at hnames
    rw [if_pos hnone, hnames.eq_nil]
    rfl
  · rw [if_neg hnone]
    exact bind_eq_ok_iff.mpr ⟨blob, hblob.blobAt_eq,
      bind_eq_ok_iff.mpr ⟨_, Imports.decode_eq hnames, rfl⟩⟩

theorem exists_infoOfRow {row : CustomInfoRow} {info : CodedIndex × CustomKind × Bytes}
    (hrow : StoresInfo heaps.blobs.data heaps.guids.data (row.parent, row.kind, row.value) info)
    (hreadable : IsReadableInfo info) : ∃ record, infoOfRow heaps row = .ok record := by
  obtain ⟨value, hvalue⟩ := hreadable.decode_eq
  refine ⟨⟨row.rid, row.parent.token, info.2.1, value⟩,
    bind_eq_ok_iff.mpr ⟨_, hrow.kind.guidAt_eq, ?_⟩⟩
  refine bind_eq_ok_iff.mpr ⟨_, hrow.value.blobAt_eq, ?_⟩
  rw [CustomKind.ofGuid_guid hreadable.known]
  exact bind_eq_ok_iff.mpr ⟨value, hvalue, rfl⟩

end Container

/-- The heaps of strings and blobs under construction, padded to a multiple of four bytes. -/
def HeapBuilders.padded (heaps : HeapBuilders) : HeapBuilders where
  strings := { heaps.strings with data := heaps.strings.data.pad4 }
  blobs := { heaps.blobs with data := heaps.blobs.data.pad4 }
  guids := heaps.guids

theorem HeapBuilders.IsSound.extends_padded {heaps : HeapBuilders} (hsound : heaps.IsSound) :
    heaps.padded.Extends heaps where
  sound := {
    strings := hsound.strings.grow _
    blobs := ⟨hsound.blobs.empty_at.grow _,
      fun value index hfound => (hsound.blobs.found value index hfound).grow _⟩
    guids := hsound.guids }
  strings := ⟨_, rfl⟩
  blobs := ⟨_, rfl⟩
  guids := ⟨#[], by simp [padded]⟩

namespace DebugBuilder.Finishes

variable {builder : DebugBuilder} {count : UInt32} {tables : DebugTables}

/-- Finished documents describe what the documents of the builder do. -/
theorem describes (hfinishes : builder.Finishes count tables) (hsound : builder.heaps.IsSound)
    (hdocuments : ∀ row ∈ builder.documents, ∃ document,
      row.Describes builder.heaps.blobs.data builder.heaps.guids.data document) :
    ∀ row ∈ tables.documents, ∃ document, row.Describes tables.blobs tables.guids document := by
  rw [hfinishes.documents, hfinishes.blobs, hfinishes.guids]
  intro row hrow
  obtain ⟨document, hdocument⟩ := hdocuments row hrow
  exact ⟨document, hsound.extends_padded.describes hdocument⟩

/-- Finished scopes of imports import what those of the builder do. -/
theorem imports (hfinishes : builder.Finishes count tables) (hsound : builder.heaps.IsSound)
    (hscopes : ∀ row ∈ builder.importScopes, ∃ names,
      row.Imports builder.heaps.blobs.data names) :
    ∀ row ∈ tables.importScopes, ∃ names, row.Imports tables.blobs names := by
  rw [hfinishes.importScopes, hfinishes.blobs]
  intro row hrow
  obtain ⟨names, hnames⟩ := hscopes row hrow
  exact ⟨names, hsound.extends_padded.imports hnames⟩

/-- A finished scope is a scope of the builder, of a method within the range. -/
theorem exists_scope (hfinishes : builder.Finishes count tables) {row : LocalScopeRow}
    (hrow : row ∈ tables.localScopes) :
    ∃ record ∈ builder.localScopes, BecomesScope row record ∧ record.1.method ≤ count := by
  obtain ⟨record, hrecord, hbecomes⟩ := exists_of_forall₂
    hfinishes.lays.numbersScopes.records (Array.mem_toList_iff.mpr hrow)
  have hmem := Array.mem_toList_iff.mp ((List.mergeSort_perm _ _).mem_iff.mp hrecord)
  exact ⟨record, hmem, hbecomes, hfinishes.lays.method_le record hrecord⟩

/-- The state machines of finished tables are those of the builder. -/
theorem mem_machines (hfinishes : builder.Finishes count tables) {row : StateMachineRow}
    (hrow : row ∈ tables.stateMachines) :
    (row.moveNextMethod, row.kickoffMethod) ∈ builder.machines := by
  have hmem := List.mem_map_of_mem (f := fun row : StateMachineRow =>
    (row.moveNextMethod, row.kickoffMethod)) (Array.mem_toList_iff.mpr hrow)
  rw [hfinishes.stateMachines] at hmem
  exact Array.mem_toList_iff.mp ((List.mergeSort_perm _ _).mem_iff.mp hmem)

/-- The custom debug information of finished tables is that of the builder. -/
theorem mem_customInfo (hfinishes : builder.Finishes count tables) {row : CustomInfoRow}
    (hrow : row ∈ tables.customInfo) :
    (row.parent, row.kind, row.value) ∈ builder.customInfo :=
  Array.mem_toList_iff.mp ((perm_sortInfo hfinishes.customInfo).mem_iff.mp
    (List.mem_map_of_mem (Array.mem_toList_iff.mpr hrow)))

end DebugBuilder.Finishes

/-- A reader finds in finished tables what the padded heaps of their builder hold. -/
theorem DebugBuilder.Finishes.heaps_eq {builder : DebugBuilder} {count : UInt32}
    {tables : DebugTables} (hfinishes : builder.Finishes count tables)
    (hsound : builder.heaps.IsSound) :
    tables.heaps.blobs = ⟨builder.heaps.padded.blobs.data⟩ ∧
      tables.heaps.guids = ⟨builder.heaps.padded.guids.data⟩ := by
  have hwhole := hsound.guids.whole
  constructor
  · simp only [DebugTables.heaps, HeapBuilders.padded, hfinishes.blobs, Bytes.pad4_pad4]
  · simp only [DebugTables.heaps, HeapBuilders.padded, hfinishes.guids]
    rw [Bytes.pad4_eq_self (by omega)]

/-- The finished tables of a closed builder refer to what their heaps hold. -/
theorem DebugBuilder.IsClosed.isResolved {builder : DebugBuilder} {count : UInt32}
    {tables : DebugTables} (hclosed : builder.IsClosed)
    (hfinishes : builder.Finishes count tables) :
    tables.IsResolved := by
  have hpadded := hclosed.grow hclosed.heaps.extends_padded
  obtain ⟨hblobs, hguids⟩ := hfinishes.heaps_eq hclosed.heaps
  have hinfo : ∀ row ∈ tables.customInfo, ∃ info, IsReadableInfo info ∧
      StoresInfo tables.heaps.blobs.data tables.heaps.guids.data (row.parent, row.kind, row.value)
        info := by
    intro row hrow
    rw [hblobs, hguids]
    obtain ⟨info, hstores, hreadable⟩ := hpadded.customInfo _ (hfinishes.mem_customInfo hrow)
    exact ⟨info, hreadable, hstores⟩
  exact {
    strings := by
      rw [hfinishes.strings]
      exact hpadded.heaps.strings
    blobs := by
      rw [hfinishes.blobs]
      exact hpadded.heaps.blobs.empty_at
    guids := by
      rw [hfinishes.guids]
      exact hclosed.heaps.guids.whole
    documents := by
      intro row hrow rid
      rw [hfinishes.documents] at hrow
      obtain ⟨document, hdocument⟩ := hpadded.documents row hrow
      have hrow : row.Describes tables.heaps.blobs.data tables.heaps.guids.data document := by
        rw [hblobs, hguids]
        exact hdocument
      exact ⟨_, Container.documentOf_eq (hrow.numbered rid)⟩
    methods := by
      intro row hrow rid
      rw [hfinishes.methods] at hrow
      obtain ⟨number, rfl⟩ := mem_methodRows hrow
      apply Container.exists_methodOf
      rw [hblobs]
      exact hpadded.hasPoints_getD number
    localVariables := by
      intro row hrow
      rw [hfinishes.localVariables hclosed.localScopes] at hrow
      simp at hrow
    importScopes := by
      intro row hrow rid
      rw [hfinishes.importScopes] at hrow
      obtain ⟨names, hnames⟩ := hpadded.importScopes row hrow
      have hrow : row.Imports tables.heaps.blobs.data names := by
        rw [hblobs]
        exact hnames
      have hempty : tables.heaps.blobs.data.HasAt 0 #[0] := by
        rw [hblobs]
        exact hpadded.heaps.blobs.empty_at
      exact ⟨_, Container.importScopeOf_eq hempty hrow⟩
    customInfo := by
      intro row hrow rid
      obtain ⟨info, hreadable, hstores⟩ := hinfo row hrow
      exact Container.exists_infoOfRow hstores hreadable
    parents := by
      intro row hrow
      obtain ⟨info, hreadable, hstores⟩ := hinfo row hrow
      have hparent : row.parent = info.1 := hstores.parent
      rw [hparent]
      exact hreadable.row_lt }

end PortablePdb
