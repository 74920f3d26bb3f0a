import Mathlib.Data.List.Nodup
import PortablePdb.Proofs.Generated
import PortablePdb.Proofs.Modules

namespace PortablePdb

open BlobHeap GuidHeap

/-- Elements have different keys if a filter for any key keeps one of them at most. -/
theorem nodup_map_of_filter {α κ : Type} [BEq κ] [LawfulBEq κ] {xs : List α} {key : α → κ}
    (hxs : ∀ k, (xs.filter fun x => key x == k).length ≤ 1) : (xs.map key).Nodup := by
  rw [List.nodup_iff_count_le_one]
  intro k
  rw [List.count, List.countP_map, List.countP_eq_length_filter]
  exact hxs k

theorem IsNumbered.of_forall₂ {ρ τ : Type} {rid : ρ → UInt32} {number : τ → UInt32}
    {rows : Array ρ} {entries : Array τ} (hrows : IsNumbered rid rows)
    (hall : List.Forall₂ (fun row entry => number entry = rid row) rows.toList entries.toList) :
    IsNumbered number entries := by
  intro i hi
  obtain ⟨row, hrow, hsame⟩ :=
    exists_getElem?_of_forall₂ hall.flip (Array.getElem?_eq_getElem hi)
  obtain ⟨hlt, rfl⟩ := Array.getElem?_eq_some_iff.mp hrow
  rw [hsame, hrows i hlt]

namespace Token

/-- A token is that of one of some number of methods. -/
def IsMethodWithin (token : Token) (count : UInt32) : Prop :=
  token.isTable .methodDef = true ∧ token.row ≤ count

end Token

/-- Rows that fit tokens are told apart by them. -/
theorem CodedIndex.token_injective {first second : CodedIndex}
    (hfirst : first.row.toNat < 0x1000000) (hsecond : second.row.toNat < 0x1000000)
    (hsame : first.token = second.token) : first = second := by
  have htable := congrArg Token.tableId hsame
  have hrow := congrArg Token.row hsame
  simp only [token, Token.tableId_ofParts] at htable
  rw [token, token, Token.row_ofParts hfirst, Token.row_ofParts hsecond] at hrow
  obtain ⟨table, row⟩ := first
  simp only at htable hrow
  rw [hrow, Table.id_injective htable]

/-- The methods of a module that says how many it has are within this number. -/
theorem Module.IsCounted.isMethodWithin {module : Module} (hmodule : module.IsCounted)
    {token : Token} (hmethod : (module.method? token).isSome = true) :
    token.IsMethodWithin module.methodCount := by
  have htable := FileRecords.isTable_of_method? hmethod
  refine ⟨htable, ?_⟩
  rw [method?, if_pos htable] at hmethod
  obtain ⟨_, hsome⟩ := Option.isSome_iff_exists.mp hmethod
  obtain ⟨hlt, _⟩ := Array.getElem?_eq_some_iff.mp hsome
  have hsize := hmodule.size_methods
  rw [UInt32.le_iff_toNat_le]
  omega

namespace Container

variable {container : Container} {tables : DebugTables}

/-- All references of a container lead to what is there, and what is told apart by a key has a key
of its own. -/
structure IsLinked (container : Container) (methodCount : UInt32) : Prop where
  documentRows : IsNumbered (·.row) container.documents
  names : (container.documents.toList.map (·.name)).Nodup
  /-- A method has a document just if it has points. -/
  methods : ∀ method ∈ container.methods,
    (method.document ≠ 0 ↔ method.points.isSome = true) ∧
    (method.document ≠ 0 → ∃ document ∈ container.documents, document.row = method.document)
  localScopes : ∀ scope ∈ container.localScopes, scope.method.IsMethodWithin methodCount ∧
    ∃ imports ∈ container.importScopes, imports.row = scope.importScope
  importRows : IsNumbered (·.row) container.importScopes
  global : ∃ imports, container.importScopes[0]? = some ⟨1, 0, imports⟩
  importScopes : ∀ scope ∈ container.importScopes, scope.row ≠ 1 →
    scope.parent ≠ 0 ∧ scope.parent < scope.row
  machines : ∀ machine ∈ container.machines,
    machine.moveNext.IsMethodWithin methodCount ∧ machine.kickoff.IsMethodWithin methodCount
  ascending : container.machines.toList.Pairwise fun a b => a.moveNext.row < b.moveNext.row
  parents : ∀ record ∈ container.info, record.parent.IsMethodWithin methodCount ∨
    ∃ document ∈ container.documents, record.parent = .ofParts .document document.row
  keys : (container.info.toList.map fun record => (record.parent, record.kind)).Nodup
  sources : ∀ document ∈ container.documents,
    (container.infoOf (.ofParts .document document.row)).countP (·.kind == .embeddedSource) = 1

theorem row_of_documentOf {heaps : Heaps} {row : DocumentRow} {document : Document}
    (hdocument : documentOf heaps row = .ok document) : document.row = row.rid := by
  obtain ⟨_, _, hdocument⟩ := bind_eq_ok_iff.mp hdocument
  obtain ⟨_, _, hdocument⟩ := bind_eq_ok_iff.mp hdocument
  obtain ⟨_, _, hdocument⟩ := bind_eq_ok_iff.mp hdocument
  obtain ⟨_, _, hdocument⟩ := bind_eq_ok_iff.mp hdocument
  obtain ⟨_, _, hdocument⟩ := bind_eq_ok_iff.mp hdocument
  rw [← pure_eq_ok_iff.mp hdocument]

theorem row_of_importScopeOf {heaps : Heaps} {row : ImportScopeRow} {scope : ImportScope}
    (hscope : importScopeOf heaps row = .ok scope) :
    scope.row = row.rid ∧ scope.parent = row.parent := by
  unfold importScopeOf at hscope
  split at hscope
  · cases hscope
    exact ⟨rfl, rfl⟩
  · obtain ⟨_, _, hscope⟩ := bind_eq_ok_iff.mp hscope
    obtain ⟨_, _, hscope⟩ := bind_eq_ok_iff.mp hscope
    rw [← pure_eq_ok_iff.mp hscope]
    exact ⟨rfl, rfl⟩

theorem parent_of_infoOfRow {heaps : Heaps} {row : CustomInfoRow} {record : InfoRecord}
    (hrecord : infoOfRow heaps row = .ok record) : record.parent = row.parent.token := by
  obtain ⟨_, _, hrecord⟩ := bind_eq_ok_iff.mp hrecord
  obtain ⟨_, _, hrecord⟩ := bind_eq_ok_iff.mp hrecord
  obtain ⟨_, _, hrecord⟩ := bind_eq_ok_iff.mp hrecord
  rw [← pure_eq_ok_iff.mp hrecord]

/-- What is read in a row of a known kind is what the row stores. -/
theorem reads_of_infoOfRow {heaps : Heaps} {row : CustomInfoRow} {record : InfoRecord}
    {info : CodedIndex × CustomKind × Bytes}
    (hrecord : infoOfRow heaps row = .ok record)
    (hinfo : StoresInfo heaps.blobs.data heaps.guids.data (row.parent, row.kind, row.value) info)
    (hknown : info.2.1 ∈ CustomKind.known) :
    record.kind = info.2.1 ∧ CustomInfo.decode info.2.1 info.2.2 = .ok record.value := by
  obtain ⟨guid, hguid, hrecord⟩ := bind_eq_ok_iff.mp hrecord
  obtain ⟨blob, hblob, hrecord⟩ := bind_eq_ok_iff.mp hrecord
  obtain ⟨value, hvalue, hrecord⟩ := bind_eq_ok_iff.mp hrecord
  have hkind : CustomKind.ofGuid guid = info.2.1 := by
    rw [Except.ok.inj (hguid.symm.trans hinfo.kind.guidAt_eq), CustomKind.ofGuid_guid hknown]
  rw [← pure_eq_ok_iff.mp hrecord]
  rw [hkind, Except.ok.inj (hblob.symm.trans hinfo.value.blobAt_eq)] at hvalue
  exact ⟨hkind, hvalue⟩

end Container

namespace DebugBuilder

/-- The entry of a method is empty, or else it names a document and a blob of points. -/
theorem Keeps.empty_or_names {builder : DebugBuilder} {submissions : List Submission}
    (hkeeps : builder.Keeps submissions)
    (hpoints : ∀ submission ∈ submissions, submission.entry.points ≠ some #[]) (row : UInt32) :
    builder.methods.getD row (0, 0) = (0, 0) ∨
      (∃ path, builder.NamesDocument (builder.methods.getD row (0, 0)).1 path) ∧
        (builder.methods.getD row (0, 0)).2 ≠ 0 := by
  rw [Std.HashMap.getD_eq_getD_getElem?]
  cases hfirst : submissions.find? (Submission.isFor row) with
  | none =>
    rw [hkeeps.unknown row hfirst]
    exact .inl rfl
  | some submission =>
    obtain ⟨entry, hentry, hrecords⟩ := hkeeps.recorded row submission hfirst
    rw [hentry, Option.getD_some]
    unfold Records at hrecords
    split at hrecords
    · next blob hblob =>
      obtain ⟨hnames, hat⟩ := hrecords
      refine .inr ⟨⟨_, hnames⟩, ?_⟩
      intro hzero
      rw [hzero] at hat
      rw [hat.eq_empty hkeeps.heaps.blobs.empty_at] at hblob
      exact hpoints submission (List.mem_of_find?_eq_some hfirst) hblob
    · exact .inl hrecords

/-- A state machine comes from the first submission for the method that runs it. -/
theorem Keeps.exists_machine {builder : DebugBuilder} {submissions : List Submission}
    (hkeeps : builder.Keeps submissions) {machine : UInt32 × UInt32}
    (hmachine : machine ∈ builder.machines) :
    ∃ submission ∈ submissions, machine ∈ submission.entry.records.machineRows := by
  have hmem : machine ∈ builder.machines.toList.filter (·.1 == machine.1) :=
    List.mem_filter.mpr ⟨Array.mem_toList_iff.mpr hmachine, beq_self_eq_true _⟩
  rw [hkeeps.machines] at hmem
  cases hfirst : submissions.find? (Submission.isFor machine.1) with
  | none => simp [hfirst] at hmem
  | some submission =>
    rw [hfirst] at hmem
    exact ⟨submission, List.mem_of_find?_eq_some hfirst, hmem⟩

/-- A method runs one state machine at most. -/
theorem Keeps.nodup_machines {builder : DebugBuilder} {submissions : List Submission}
    (hkeeps : builder.Keeps submissions) : (builder.machines.toList.map (·.1)).Nodup := by
  apply nodup_map_of_filter
  intro row
  rw [hkeeps.machines]
  cases submissions.find? (Submission.isFor row) with
  | none => exact Nat.zero_le 1
  | some submission => exact submission.entry.records.length_machineRows_le

end DebugBuilder

namespace Generation.Generates

variable {module : Module} {decompiler : Decompiler} {options : GeneratorOptions}
  {compress : Bytes → Bytes} {generated : GeneratedContainer} {builder : DebugBuilder}
  {tables : DebugTables} {diagnostics : List Diagnostic} {container : Container}

variable (hgenerates : Generates module decompiler options compress generated builder tables
  diagnostics)

include hgenerates

/-- The methods of a state machine are the one that holds the code of a function and the function's
own. -/
theorem exists_machine {row : StateMachineRow} (hrow : row ∈ tables.stateMachines) :
    ∃ (function : DecompiledFunction) (entry : MethodRecords),
      FileRecords.Accepts module function entry ∧ row.moveNextMethod = entry.method.row ∧
        row.kickoffMethod = function.method.row := by
  have hmem := List.mem_map_of_mem (f := fun row : StateMachineRow =>
    (row.moveNextMethod, row.kickoffMethod)) (Array.mem_toList_iff.mpr hrow)
  rw [hgenerates.finishes.stateMachines, (List.mergeSort_perm _ _).mem_iff,
    Array.mem_toList_iff] at hmem
  obtain ⟨submission, hsubmission, hrecords⟩ := hgenerates.keeps.exists_machine hmem
  obtain ⟨function, haccepts⟩ := exists_accepts hsubmission
  exact ⟨function, submission.entry, haccepts,
    Prod.mk.inj (haccepts.mem_machineRows hrecords)⟩

/-- The rows of records about a row store what the builder has about it, in the same order. -/
theorem forall₂_infoRows {parent : CodedIndex} {infos : List (CodedIndex × CustomKind × Bytes)}
    (hinfos : List.Forall₂ (StoresInfo builder.heaps.blobs.data builder.heaps.guids.data)
      (builder.customInfo.toList.filter (·.1 == parent)) infos) :
    List.Forall₂ (fun (row : CustomInfoRow) info =>
      StoresInfo tables.heaps.blobs.data tables.heaps.guids.data
        (row.parent, row.kind, row.value) info)
      (tables.customInfo.toList.filter (·.parent == parent)) infos := by
  have hsound := hgenerates.keeps.heaps
  have hpadded := hsound.extends_padded
  obtain ⟨hblobs, hguids⟩ := hgenerates.finishes.heaps_eq hsound
  have hsame := DebugBuilder.filter_sortInfo hgenerates.finishes.customInfo parent
  rw [← hsame, List.filter_map, List.forall₂_map_left_iff] at hinfos
  rw [hblobs, hguids]
  exact hinfos.imp fun _ _ hinfo => hpadded.storesInfo hinfo

variable (hlists : container.Lists tables)

include hlists

theorem documentRows : IsNumbered (·.row) container.documents :=
  hgenerates.allNumbered.documents.of_forall₂
    (hlists.documents.imp fun _ _ ⟨_, hdocument⟩ => (Container.row_of_documentOf hdocument :))

theorem exists_document {row : DocumentRow} (hrow : row ∈ builder.documents) :
    ∃ document ∈ container.documents, document.row = row.rid := by
  rw [← hgenerates.finishes.documents] at hrow
  obtain ⟨document, hdocument, _, hof⟩ :=
    exists_of_forall₂ hlists.documents (Array.mem_toList_iff.mpr hrow)
  exact ⟨document, Array.mem_toList_iff.mp hdocument, (Container.row_of_documentOf hof :)⟩

/-- The documents of a container are those that were added, in their order. -/
theorem forall₂_documents {documents : List SourceDocument}
    (hdocuments : builder.KeepsDocuments documents) :
    List.Forall₂ (fun source (document : Document) =>
      document.name = source.path ∧ document.hash = source.hash.toArray)
      documents container.documents.toList := by
  have hpadded := hdocuments.heaps.extends_padded
  obtain ⟨hblobs, hguids⟩ := hgenerates.finishes.heaps_eq hdocuments.heaps
  have hentries := hlists.documents
  rw [hgenerates.finishes.documents] at hentries
  apply forall₂_trans hdocuments.described.flip hentries
  rintro source row document hrow ⟨_, hdocument⟩
  have hdescribes : row.Describes tables.heaps.blobs.data tables.heaps.guids.data source := by
    rw [hblobs, hguids]
    exact hpadded.describes hrow
  rw [Container.documentOf_eq hdescribes] at hdocument
  have hsame := Except.ok.inj hdocument
  exact ⟨congrArg Document.name hsame.symm, congrArg Document.hash hsame.symm⟩

/-- The documents of a container have the paths of their files for names. -/
theorem nodup_names : (container.documents.toList.map (·.name)).Nodup := by
  have hdocuments := hgenerates.keepsDocuments
  have hpaths : container.documents.toList.map (·.name) =
      (documentsOf module decompiler options compress).map (·.path) := by
    rw [← List.forall₂_eq_eq_eq, List.forall₂_map_left_iff, List.forall₂_map_right_iff]
    exact (hgenerates.forall₂_documents hlists hdocuments).flip.imp fun _ _ hsame => hsame.1
  rw [hpaths]
  exact hdocuments.paths

theorem method_linked {method : DebugMethod} (hmethod : method ∈ container.methods) :
    (method.document ≠ 0 ↔ method.points.isSome = true) ∧
      (method.document ≠ 0 →
        ∃ document ∈ container.documents, document.row = method.document) := by
  obtain ⟨row, hrow, hof⟩ :=
    exists_of_forall₂ hlists.methods.flip (Array.mem_toList_iff.mpr hmethod)
  rw [hgenerates.finishes.methods, Array.mem_toList_iff] at hrow
  obtain ⟨rid, rfl⟩ := DebugBuilder.mem_methodRows hrow
  obtain ⟨_, hdocument, hpoints⟩ := Container.methodOf_eq hof
  have hblobs : ∀ submission ∈ allSubmissionsOf module decompiler options compress,
      submission.entry.points ≠ some #[] := by
    intro submission hsubmission hempty
    obtain ⟨function, haccepts⟩ := exists_accepts hsubmission
    obtain ⟨_, _, hencode⟩ := haccepts.points _ hempty
    exact SequencePoints.ne_empty_of_encode hencode rfl
  rw [hdocument, hpoints]
  rcases hgenerates.keeps.empty_or_names hblobs rid with hnone | ⟨⟨path, hnames⟩, hblob⟩
  · simp [hnone]
  · obtain ⟨documentRow, _, hnumber, hdocumentRow, hrid, _, _⟩ := hnames
    refine ⟨by simp [hnumber, hblob], fun _ => ?_⟩
    obtain ⟨document, hdocument, hsame⟩ :=
      hgenerates.exists_document hlists (Array.mem_of_getElem? hdocumentRow)
    exact ⟨document, hdocument, hsame.trans hrid⟩

theorem importRows : IsNumbered (·.row) container.importScopes :=
  hgenerates.allNumbered.importScopes.of_forall₂
    (hlists.importScopes.imp fun _ _ hscope => (Container.row_of_importScopeOf hscope).1)

theorem global_linked : ∃ imports, container.importScopes[0]? = some ⟨1, 0, imports⟩ := by
  have hglobal := hgenerates.keepsScopes.importScopes.global
  rw [← hgenerates.finishes.importScopes] at hglobal
  obtain ⟨⟨row, parent, imports⟩, hscope, hof⟩ :=
    exists_getElem?_of_forall₂ hlists.importScopes hglobal
  obtain ⟨rfl, rfl⟩ := Container.row_of_importScopeOf hof
  exact ⟨imports, hscope⟩

theorem importScope_linked {scope : ImportScope} (hscope : scope ∈ container.importScopes)
    (hinner : scope.row ≠ 1) : scope.parent ≠ 0 ∧ scope.parent < scope.row := by
  have htree := hgenerates.keepsScopes.importScopes
  obtain ⟨row, hrow, hof⟩ :=
    exists_of_forall₂ hlists.importScopes.flip (Array.mem_toList_iff.mpr hscope)
  rw [hgenerates.finishes.importScopes, Array.mem_toList_iff] at hrow
  obtain ⟨hrid, hparent⟩ := Container.row_of_importScopeOf hof
  rw [hrid] at hinner
  obtain ⟨parent, hmem, hsame, hlt⟩ := htree.parent row hrow hinner
  rw [hrid, hparent, ← hsame]
  refine ⟨?_, hlt⟩
  obtain ⟨i, hi, rfl⟩ := Array.mem_iff_getElem.mp hmem
  have hnumber := htree.numbered i hi
  rw [ne_eq, ← UInt32.toNat_inj, hnumber]
  exact Nat.succ_ne_zero i

theorem localScope_linked {scope : LocalScope} (hscope : scope ∈ container.localScopes) :
    scope.method.IsMethodWithin module.methodCount ∧
      ∃ imports ∈ container.importScopes, imports.row = scope.importScope := by
  have hkeeps := hgenerates.keepsScopes
  obtain ⟨entry, hentry, hof⟩ := exists_of_forall₂
    (hgenerates.finishes.forall₂_scopes hlists).flip (Array.mem_toList_iff.mpr hscope)
  have hle := hgenerates.finishes.lays.method_le entry hentry
  obtain ⟨record, hrecord, hkey, sets, _, hchain⟩ := hkeeps.exists_record
    (Array.mem_toList_iff.mp ((List.mergeSort_perm _ _).mem_iff.mp hentry))
  have hmethod := hkeeps.methods record hrecord
  have hrow : entry.1.method = record.scope.method.row := congrArg (·.1) hkey
  obtain ⟨hpos, hexists⟩ := hchain.le_size hkeeps.importScopes
  rw [hof.method, hof.importScope]
  constructor
  · rw [hrow] at hle ⊢
    rw [Token.methodDef_row hmethod]
    exact ⟨hmethod, hle⟩
  · obtain ⟨row, hmem, hrid⟩ := hkeeps.importScopes.numbered.exists_mem hpos hexists
    rw [← hgenerates.finishes.importScopes] at hmem
    obtain ⟨imports, himports, hscope⟩ :=
      exists_of_forall₂ hlists.importScopes (Array.mem_toList_iff.mpr hmem)
    exact ⟨imports, Array.mem_toList_iff.mp himports,
      (Container.row_of_importScopeOf hscope).1.trans hrid⟩

theorem machine_linked (hmodule : module.IsCounted) {machine : MachineMethods}
    (hmachine : machine ∈ container.machines) :
    machine.moveNext.IsMethodWithin module.methodCount ∧
      machine.kickoff.IsMethodWithin module.methodCount := by
  rw [hlists.machines] at hmachine
  obtain ⟨row, hrow, rfl⟩ := Array.mem_map.mp hmachine
  obtain ⟨function, entry, haccepts, hmoveNext, hkickoff⟩ := hgenerates.exists_machine hrow
  have hbody := hmodule.isMethodWithin haccepts.exists_body
  have hstart := hmodule.isMethodWithin haccepts.exists_kickoff
  rw [Container.machineOf, hmoveNext, hkickoff, Token.methodDef_row hbody.1,
    Token.methodDef_row hstart.1]
  exact ⟨hbody, hstart⟩

/-- State machines come in the order of the methods that run them, each of which runs only one. -/
theorem pairwise_machines :
    container.machines.toList.Pairwise fun a b => a.moveNext.row < b.moveNext.row := by
  have hsorted : (tables.stateMachines.toList.map fun row : StateMachineRow =>
      (row.moveNextMethod, row.kickoffMethod)).Pairwise fun a b => a.1 < b.1 := by
    rw [hgenerates.finishes.stateMachines]
    have hordered := (isSortedBy_mergeSort Prod.fst builder.machines.toList).ordered
    have hdistinct := ((List.mergeSort_perm builder.machines.toList fun a b =>
      decide (a.1 ≤ b.1)).map Prod.fst).nodup_iff.mpr hgenerates.keeps.nodup_machines
    rw [List.Nodup, List.pairwise_map] at hdistinct
    exact (hordered.and hdistinct).imp fun hboth => UInt32.lt_of_le_of_ne hboth.1 hboth.2
  have hrow {row : StateMachineRow} (hmem : row ∈ tables.stateMachines.toList) :
      (Container.machineOf row).moveNext.row = row.moveNextMethod := by
    obtain ⟨_, entry, _, hmoveNext, _⟩ := hgenerates.exists_machine (Array.mem_toList_iff.mp hmem)
    rw [Container.machineOf, hmoveNext]
    exact Token.row_ofParts (Token.row_lt _)
  rw [List.pairwise_map] at hsorted
  rw [hlists.machines, Array.toList_map, List.pairwise_map]
  apply hsorted.imp_of_mem
  intro first second hfirst hsecond hlt
  rwa [hrow hfirst, hrow hsecond]

/-- The parent of a record is that of a record of the builder. -/
theorem exists_record {record : InfoRecord} (hrecord : record ∈ container.info) :
    ∃ entry ∈ builder.customInfo, record.parent = entry.1.token := by
  obtain ⟨row, hrow, hof⟩ :=
    exists_of_forall₂ hlists.info.flip (Array.mem_toList_iff.mpr hrecord)
  have hmem := List.mem_map_of_mem (f := fun row : CustomInfoRow =>
    (row.parent, row.kind, row.value)) hrow
  rw [(DebugBuilder.perm_sortInfo hgenerates.finishes.customInfo).mem_iff,
    Array.mem_toList_iff] at hmem
  exact ⟨_, hmem, Container.parent_of_infoOfRow hof⟩

theorem parent_linked (hmodule : module.IsCounted) {record : InfoRecord}
    (hrecord : record ∈ container.info) :
    record.parent.IsMethodWithin module.methodCount ∨
      ∃ document ∈ container.documents, record.parent = .ofParts .document document.row := by
  have hdocuments := hgenerates.keepsDocuments
  obtain ⟨entry, hentry, hparent⟩ := hgenerates.exists_record hlists hrecord
  rw [hparent]
  rcases hdocuments.parents entry hentry with htable | htable
  · obtain ⟨row, hrow, hsame⟩ := hdocuments.exists_row hentry htable
    obtain ⟨document, hdocument, hrid⟩ := hgenerates.exists_document hlists hrow
    refine .inr ⟨document, hdocument, ?_⟩
    rw [hsame, hrid]
    rfl
  · obtain ⟨submission, hfirst⟩ := hgenerates.keeps.exists_first hentry htable
    obtain ⟨function, haccepts⟩ := exists_accepts (List.mem_of_find?_eq_some hfirst)
    have hrow : submission.entry.method.row = entry.1.row := by
      simpa [Submission.isFor] using List.find?_some hfirst
    have htoken : entry.1.token = submission.entry.method := by
      rw [CodedIndex.token, htable, ← hrow]
      exact Token.methodDef_row haccepts.isOwn.method
    rw [htoken]
    exact .inl (hmodule.isMethodWithin haccepts.exists_body)

/-- The kinds of the records about a row are those that the builder has for it, in their order. -/
theorem map_kind_infoOf {parent : CodedIndex} {infos : List (CodedIndex × CustomKind × Bytes)}
    (hparent : parent.row.toNat < 0x1000000)
    (hinfos : List.Forall₂ (StoresInfo builder.heaps.blobs.data builder.heaps.guids.data)
      (builder.customInfo.toList.filter (·.1 == parent)) infos)
    (hknown : ∀ info ∈ infos, info.2.1 ∈ CustomKind.known) :
    (container.infoOf parent.token).map (·.kind) = infos.map (·.2.1) := by
  have hstored := hgenerates.forall₂_infoRows hinfos
  have hread : List.Forall₂ (fun row record => Container.infoOfRow tables.heaps row = .ok record)
      (tables.customInfo.toList.filter (·.parent == parent)) (container.infoOf parent.token) := by
    have hrows : ∀ row ∈ tables.customInfo.toList, row.parent.row.toNat < 0x1000000 :=
      fun row hrow => hgenerates.customInfo_row_lt (Array.mem_toList_iff.mp hrow)
    have hboth := (List.forall₂_and_left _ _).mpr ⟨hrows, hlists.info⟩
    refine (List.rel_filter ?_ hboth).imp fun _ _ hrow => hrow.2
    rintro row record ⟨hrow, hrecord⟩
    simp only [Container.parent_of_infoOfRow hrecord, beq_iff_eq]
    exact ⟨congrArg CodedIndex.token, CodedIndex.token_injective hrow hparent⟩
  have hinfos := ((List.forall₂_and_left _ _).mpr ⟨hknown, hstored.flip⟩).flip
  have hkinds := forall₂_trans hread.flip hinfos
    fun record row info hrecord hinfo =>
      (Container.reads_of_infoOfRow hrecord hinfo.2 hinfo.1).1
  rw [← List.forall₂_eq_eq_eq, List.forall₂_map_left_iff, List.forall₂_map_right_iff]
  exact hkinds

/-- A document has its embedded source, and no other record. -/
theorem map_kind_document {row : DocumentRow} (hrow : row ∈ builder.documents) :
    (container.infoOf (.ofParts .document row.rid)).map (·.kind) = [.embeddedSource] := by
  have hdocuments := hgenerates.keepsDocuments
  obtain ⟨document, hentry⟩ := hdocuments.exists_entry hrow
  have hfits : (⟨.document, row.rid⟩ : CodedIndex).row.toNat < 0x1000000 :=
    hdocuments.rid_lt hrow
  have hkinds := hgenerates.map_kind_infoOf hlists hfits (hdocuments.storesSource hentry)
    (by simp [CustomKind.known])
  rwa [CodedIndex.token] at hkinds

/-- A method has at most one record of each kind. -/
theorem nodup_kinds_method {row : UInt32} (hrow : row.toNat < 0x1000000) :
    ((container.infoOf (.methodDef row)).map (·.kind)).Nodup := by
  have hinfos := hgenerates.keeps.info row
  cases hfirst : (allSubmissionsOf module decompiler options compress).find?
      (Submission.isFor row) with
  | none =>
    rw [hfirst, Option.elim_none] at hinfos
    have hkinds := hgenerates.map_kind_infoOf hlists hrow hinfos nofun
    exact hkinds ▸ .nil
  | some submission =>
    rw [hfirst, Option.elim_some] at hinfos
    have hkinds := hgenerates.map_kind_infoOf hlists hrow hinfos
      fun info hinfo => FunctionRecords.known_of_mem_infos hinfo
    exact hkinds ▸ submission.entry.records.nodup_kinds

/-- Records about the same row are of different kinds. -/
theorem nodup_keys :
    (container.info.toList.map fun record => (record.parent, record.kind)).Nodup := by
  have hdocuments := hgenerates.keepsDocuments
  apply nodup_map_of_filter
  rintro ⟨parent, kind⟩
  have hcount : (container.info.toList.filter fun record =>
      (record.parent, record.kind) == (parent, kind)).length =
      ((container.infoOf parent).map (·.kind)).count kind := by
    rw [List.count, List.countP_map, List.countP_eq_length_filter, Container.infoOf,
      List.filter_filter]
    congr 1
    exact List.filter_congr fun record _ => Bool.and_comm _ _
  rw [hcount]
  apply List.nodup_iff_count_le_one.mp
  by_cases hnone : container.infoOf parent = []
  · rw [hnone]
    exact .nil
  · obtain ⟨record, hrecord⟩ := List.exists_mem_of_ne_nil _ hnone
    obtain ⟨hmem, hparent⟩ := List.mem_filter.mp hrecord
    obtain ⟨entry, hentry, hsame⟩ := hgenerates.exists_record hlists (Array.mem_toList_iff.mp hmem)
    rw [← eq_of_beq hparent, hsame]
    rcases hdocuments.parents entry hentry with htable | htable
    · obtain ⟨row, hrow, hdocument⟩ := hdocuments.exists_row hentry htable
      have hkinds := hgenerates.map_kind_document hlists hrow
      rw [hdocument, CodedIndex.token, hkinds]
      exact List.pairwise_singleton _ _
    · rw [CodedIndex.token, htable]
      exact hgenerates.nodup_kinds_method hlists (hgenerates.parent_row_lt hentry)

theorem isLinked (hmodule : module.IsCounted) : container.IsLinked module.methodCount where
  documentRows := hgenerates.documentRows hlists
  names := hgenerates.nodup_names hlists
  methods method hmethod := hgenerates.method_linked hlists hmethod
  localScopes scope hscope := hgenerates.localScope_linked hlists hscope
  importRows := hgenerates.importRows hlists
  global := hgenerates.global_linked hlists
  importScopes scope hscope := hgenerates.importScope_linked hlists hscope
  machines machine hmachine := hgenerates.machine_linked hlists hmodule hmachine
  ascending := hgenerates.pairwise_machines hlists
  parents record hrecord := hgenerates.parent_linked hlists hmodule hrecord
  keys := hgenerates.nodup_keys hlists
  sources document hdocument := by
    have hrow : ∃ row ∈ builder.documents, row.rid = document.row := by
      obtain ⟨row, hrow, _, hof⟩ :=
        exists_of_forall₂ hlists.documents.flip (Array.mem_toList_iff.mpr hdocument)
      rw [hgenerates.finishes.documents, Array.mem_toList_iff] at hrow
      exact ⟨row, hrow, (Container.row_of_documentOf hof).symm⟩
    obtain ⟨row, hrow, hrid⟩ := hrow
    have hkinds := hgenerates.map_kind_document hlists hrow
    rw [← hrid, ← Function.comp_def (· == CustomKind.embeddedSource), ← List.countP_map, hkinds]
    rfl

end Generation.Generates

namespace Generation

variable {module : Module} {decompiler : Decompiler} {options : GeneratorOptions}
  {compress : Bytes → Bytes} {newPool : PoolCreation} {generated : GeneratedContainer}

/-- What is generated for a module that has the methods it says is read back as a container in
which all references lead somewhere. -/
theorem generate_links (hmodule : module.IsCounted)
    (hgenerated : generate module decompiler options compress newPool = .ok generated) :
    (Deflate.IsCompressor compress → generated.data.size < 0x100000000 →
      ∃ container, Container.ofBytes generated.data = .ok container) ∧
    ∀ container, Container.ofBytes generated.data = .ok container →
      container.IsLinked module.methodCount := by
  obtain ⟨builder, tables, diagnostics, hgenerates⟩ := exists_generates hgenerated
  refine ⟨hgenerates.exists_ofBytes, ?_⟩
  intro container hread
  exact hgenerates.isLinked (hgenerates.lists hread) hmodule

/-- A module that is built up, with one method. -/
def builtModule : Module :=
  (((Module.named "A").addType "" "A").1.addMethod (.typeDef 2) "M" (some ⟨2, 0⟩)).1

theorem isCounted_builtModule : builtModule.IsCounted :=
  ((Module.IsCounted.named "A").addType "" "A").addMethod (by decide) (.typeDef 2) "M"
    (some ⟨2, 0⟩)

/-- The decompiler hides the type that stands for the module itself. -/
def builtDecompiler : Decompiler :=
  { sampleDecompiler with isHidden := (· == .typeDef 1) }

theorem outcomesOf_built :
    outcomesOf builtModule builtDecompiler sampleOptions Deflate.deflate =
      [{ path := "A.cs", records := some sampleRecords }] := by
  have hfiles : SourceFile.ofModule builtModule builtDecompiler true =
      [⟨"A.cs", [.typeDef 2]⟩] := by decide
  exact outcomesOf_of_records hfiles (by decide +kernel)

theorem generate_links_built : ∃ generated container,
    builtModule.IsCounted ∧ generate builtModule builtDecompiler sampleOptions = .ok generated ∧
      Container.ofBytes generated.data = .ok container ∧ container.IsLinked 1 := by
  have hsize : (sampleTables.encode .zero builtModule.entryPoint
      builtModule.rowCounts).toOption.map Array.size = some 364 :=
    DebugTables.size_encode_of_form 84 364 (by decide +kernel) (by decide) (by decide) _ _
  obtain ⟨generated, hgenerated, hsize⟩ :=
    exists_generate_of_sampleRecords outcomesOf_built rfl hsize
  obtain ⟨hexists, hlinked⟩ := generate_links isCounted_builtModule hgenerated
  obtain ⟨container, hread⟩ := hexists Deflate.isCompressor_deflate (by omega)
  exact ⟨generated, container, isCounted_builtModule, hgenerated, hread, hlinked container hread⟩

end Generation

end PortablePdb
