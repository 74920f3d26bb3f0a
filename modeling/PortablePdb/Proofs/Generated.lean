import PortablePdb.Proofs.Documents
import PortablePdb.Proofs.Entries
import PortablePdb.Proofs.Generation
import PortablePdb.Proofs.ImportChains

namespace PortablePdb

/-- The namespaces of a file that has records are nested. -/
theorem FileRecords.isNested_of_records {module : Module} {decompiler : Decompiler}
    {banner : Option String} {source : SourceFile} {compress : Bytes → Bytes} {file : FileRecords}
    (hfile : (FileOutcome.ofFile module decompiler banner source compress).records = some file) :
    file.scopes.IsNested := by
  obtain ⟨decompiled, _, hof⟩ := exists_areOf hfile
  exact FileScopes.isNested_of_ofFile hof.scopes

/-- A scope of a container has what is recorded for it. -/
structure LocalScope.IsOf (scope : LocalScope) (row : LocalScopeRow) : Prop where
  method : scope.method = .methodDef row.method
  importScope : scope.importScope = row.importScope
  startOffset : scope.startOffset = row.startOffset
  length : scope.length = row.length

/-- The scopes of a container are those of a builder, in the order of their rows. -/
theorem DebugBuilder.Finishes.forall₂_scopes {builder : DebugBuilder} {count : UInt32}
    {tables : DebugTables} {container : Container} (hfinishes : builder.Finishes count tables)
    (hlists : container.Lists tables) :
    List.Forall₂ (fun (entry : LocalScopeRow × List LocalVariableRow) scope => scope.IsOf entry.1)
      (builder.localScopes.toList.mergeSort fun a b => DebugTables.scopeLE a.1 b.1)
      container.localScopes.toList := by
  apply forall₂_trans hfinishes.lays.numbersScopes.records.flip hlists.localScopes
  rintro entry row scope hrow ⟨slots, rfl⟩
  rw [hrow]
  exact ⟨rfl, rfl, rfl, rfl⟩

namespace Generation

variable {module : Module} {decompiler : Decompiler} {options : GeneratorOptions}
  {compress : Bytes → Bytes} {generated : GeneratedContainer} {builder : DebugBuilder}
  {tables : DebugTables} {diagnostics : List Diagnostic}

/-- The scopes of the methods of all source files, in the order of the files and of the scopes in
them. -/
def scopeRecordsOf (module : Module) (decompiler : Decompiler) (options : GeneratorOptions)
    (compress : Bytes → Bytes) : List ScopeRecord :=
  (outcomesOf module decompiler options compress).flatMap ScopeRecord.ofOutcome

/-- The documents of a run, in the order of their files. -/
def documentsOf (module : Module) (decompiler : Decompiler) (options : GeneratorOptions)
    (compress : Bytes → Bytes) : List SourceDocument :=
  (outcomesOf module decompiler options compress).flatMap fun outcome =>
    (outcome.records.map (·.document)).toList

/-- What is submitted for all methods, in the order of the files and of the functions in them. -/
def allSubmissionsOf (module : Module) (decompiler : Decompiler) (options : GeneratorOptions)
    (compress : Bytes → Bytes) : List Submission :=
  (outcomesOf module decompiler options compress).flatMap Submission.ofOutcome

/-- Each submission is of a function that was accepted. -/
theorem exists_accepts {submission : Submission}
    (hmem : submission ∈ allSubmissionsOf module decompiler options compress) :
    ∃ function, FileRecords.Accepts module function submission.entry := by
  obtain ⟨outcome, houtcome, hmem⟩ := List.mem_flatMap.mp hmem
  obtain ⟨source, _, rfl⟩ := List.mem_map.mp houtcome
  obtain ⟨entry, hentry, rfl⟩ := List.mem_map.mp hmem
  cases hrecords :
      (FileOutcome.ofFile module decompiler options.banner source compress).records with
  | none => simp [hrecords] at hentry
  | some file =>
    rw [hrecords] at hentry
    obtain ⟨decompiled, _, hof⟩ := FileRecords.exists_areOf hrecords
    exact hof.accepts entry hentry

namespace Generates

variable (hgenerates : Generates module decompiler options compress generated builder tables
  diagnostics)

include hgenerates

theorem finishes : builder.Finishes module.methodCount tables :=
  DebugBuilder.finishes_of_finish hgenerates.finish_eq

theorem keepsDocuments :
    builder.KeepsDocuments (documentsOf module decompiler options compress) :=
  DebugBuilder.keepsDocuments_empty.mergeAll hgenerates.merge_eq

theorem keeps : builder.Keeps (allSubmissionsOf module decompiler options compress) :=
  (DebugBuilder.keeps_empty.mergeAll hgenerates.merge_eq fun _ => isOwn_of_mem_outcomesOf).1

theorem keepsScopes : builder.KeepsScopes (scopeRecordsOf module decompiler options compress) := by
  refine DebugBuilder.keepsScopes_empty.mergeAll hgenerates.merge_eq ?_
  intro outcome houtcome file hfile
  obtain ⟨source, _, rfl⟩ := List.mem_map.mp houtcome
  exact FileRecords.isNested_of_records hfile

theorem allNumbered : tables.AllNumbered := by
  have hdocuments := hgenerates.keepsDocuments
  exact hgenerates.finishes.allNumbered hdocuments.numbered
    hgenerates.keepsScopes.importScopes.numbered

/-- The rows that custom debug information is about fit tokens. -/
theorem parent_row_lt {record : CodedIndex × UInt32 × UInt32}
    (hrecord : record ∈ builder.customInfo) : record.1.row.toNat < 0x1000000 := by
  have hdocuments := hgenerates.keepsDocuments
  rcases hdocuments.parents record hrecord with htable | htable
  · obtain ⟨row, hrow, hparent⟩ := hdocuments.exists_row hrecord htable
    rw [hparent]
    exact hdocuments.rid_lt hrow
  · obtain ⟨submission, hfirst⟩ := hgenerates.keeps.exists_first hrecord htable
    have hrow : submission.entry.method.row = record.1.row := by
      simpa [Submission.isFor] using List.find?_some hfirst
    rw [← hrow]
    exact Token.row_lt _

theorem customInfo_row_lt {row : CustomInfoRow} (hrow : row ∈ tables.customInfo) :
    row.parent.row.toNat < 0x1000000 := by
  have hmem := List.mem_map_of_mem (f := fun row : CustomInfoRow =>
    (row.parent, row.kind, row.value)) (Array.mem_toList_iff.mpr hrow)
  have hrecord := (DebugBuilder.perm_sortInfo hgenerates.finishes.customInfo).mem_iff.mp hmem
  exact hgenerates.parent_row_lt (Array.mem_toList_iff.mp hrecord)

/-- The entries of the container of a run are those of its tables. -/
theorem lists {container : Container} (hread : Container.ofBytes generated.data = .ok container) :
    container.Lists tables := by
  obtain ⟨contentId, _, hencode⟩ := hgenerates.encode_eq
  exact Container.lists_of_ofBytes (encode_of_encodeWithId hencode) hgenerates.allNumbered
    (fun row hrow => hgenerates.customInfo_row_lt hrow) hread

/-- A container of a run can be read as long as a word can measure it. -/
theorem exists_ofBytes (hcompress : Deflate.IsCompressor compress)
    (hsize : generated.data.size < 0x100000000) :
    ∃ container, Container.ofBytes generated.data = .ok container := by
  obtain ⟨contentId, _, hencode⟩ := hgenerates.encode_eq
  have hclosed := isClosed_of_generates hcompress hgenerates
  obtain ⟨container, hread, _⟩ := Container.exists_ofBytes (encode_of_encodeWithId hencode) hsize
    (hclosed.isResolved hgenerates.finishes)
  exact ⟨container, hread⟩

end Generates

end Generation

end PortablePdb
