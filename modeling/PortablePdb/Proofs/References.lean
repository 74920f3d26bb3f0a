import PortablePdb.Proofs.Contents
import PortablePdb.Proofs.Merge

namespace PortablePdb

open BlobHeap GuidHeap

/-- A method has no points, or a document and a blob that some points were written as. -/
def HasPoints (blobs : Bytes) (document points : UInt32) : Prop :=
  points = 0 ∨ document ≠ 0 ∧ ∃ localSignature list blob, HasBlob blobs points blob ∧
    SequencePoints.encode localSignature list = .ok (some blob)

/-- The value of custom debug information can be read, and its parent fits a token. -/
structure IsReadableInfo (info : CodedIndex × CustomKind × Bytes) : Prop where
  row_lt : info.1.row.toNat < 0x1000000
  known : info.2.1 ∈ CustomKind.known
  decode_eq : ∃ value, CustomInfo.decode info.2.1 info.2.2 = .ok value

/-- The blobs of a function are what its points and its records were written as. -/
structure MethodRecords.IsEncoded (entry : MethodRecords) : Prop where
  points : ∀ blob, entry.points = some blob →
    ∃ localSignature list, SequencePoints.encode localSignature list = .ok (some blob)
  infos : ∀ info ∈ entry.records.infos, IsReadableInfo info

/-- The blobs of a file are what its source and its functions were written as. -/
structure FileRecords.IsEncoded (file : FileRecords) : Prop where
  source : ∃ value, CustomInfo.decode .embeddedSource file.document.embedded = .ok value
  methods : ∀ entry ∈ file.methods, entry.IsEncoded

namespace DebugBuilder

/-- Each record of a builder refers to something that its heaps hold and that can be read. -/
structure IsClosed (builder : DebugBuilder) : Prop where
  heaps : builder.heaps.IsSound
  documents : ∀ row ∈ builder.documents, ∃ document,
    row.Describes builder.heaps.blobs.data builder.heaps.guids.data document
  methods : ∀ (row : UInt32) (entry : UInt32 × UInt32), builder.methods[row]? = some entry →
    HasPoints builder.heaps.blobs.data entry.1 entry.2
  importScopes : ∀ row ∈ builder.importScopes, ∃ names,
    row.Imports builder.heaps.blobs.data names
  localScopes : ∀ scope ∈ builder.localScopes, scope.2 = []
  customInfo : ∀ record ∈ builder.customInfo, ∃ info,
    StoresInfo builder.heaps.blobs.data builder.heaps.guids.data record info ∧ IsReadableInfo info

theorem isClosed_empty : IsClosed empty where
  heaps := HeapBuilders.isSound_empty
  documents := by simp [empty]
  methods := by simp [empty]
  importScopes := by
    have hsound := HeapBuilders.isSound_empty
    simp only [empty, List.mem_toArray, List.mem_singleton, forall_eq]
    exact ⟨[], #[], hasBlob_empty hsound.blobs.empty_at, rfl⟩
  localScopes := by simp [empty]
  customInfo := by simp [empty]

variable {builder after : DebugBuilder}

theorem IsClosed.grow (hclosed : builder.IsClosed) {heaps : HeapBuilders}
    (hheaps : heaps.Extends builder.heaps) : IsClosed { builder with heaps } where
  heaps := hheaps.sound
  documents row hrow := by
    obtain ⟨document, hdocument⟩ := hclosed.documents row hrow
    exact ⟨document, hheaps.describes hdocument⟩
  methods row entry hentry := by
    rcases hclosed.methods row entry hentry with
      hnone | ⟨hdocument, signature, list, blob, hblob, hlist⟩
    · exact .inl hnone
    · exact .inr ⟨hdocument, signature, list, blob, hheaps.hasBlob hblob, hlist⟩
  importScopes row hrow := by
    obtain ⟨names, hnames⟩ := hclosed.importScopes row hrow
    exact ⟨names, hheaps.imports hnames⟩
  localScopes := hclosed.localScopes
  customInfo record hrecord := by
    obtain ⟨info, hinfo, hreadable⟩ := hclosed.customInfo record hrecord
    exact ⟨info, hheaps.storesInfo hinfo, hreadable⟩

/-- Records that refer to readable values may be added. -/
theorem IsClosed.addInfo (hclosed : builder.IsClosed)
    {added : List (CodedIndex × UInt32 × UInt32)} {infos : List (CodedIndex × CustomKind × Bytes)}
    (hadded : List.Forall₂ (StoresInfo builder.heaps.blobs.data builder.heaps.guids.data)
      added infos) (hinfos : ∀ info ∈ infos, IsReadableInfo info) :
    IsClosed { builder with customInfo := builder.customInfo ++ added.toArray } where
  heaps := hclosed.heaps
  documents := hclosed.documents
  methods := hclosed.methods
  importScopes := hclosed.importScopes
  localScopes := hclosed.localScopes
  customInfo record hrecord := by
    rcases Array.mem_append.mp hrecord with hold | hnew
    · exact hclosed.customInfo record hold
    · obtain ⟨info, hinfo, hstores⟩ := exists_of_forall₂ hadded (by simpa using hnew)
      exact ⟨info, hstores, hinfos info hinfo⟩

theorem IsClosed.addDocument {document : SourceDocument} {rid : UInt32} (hclosed : builder.IsClosed)
    (hrun : (addDocument document).run builder = .ok rid after)
    (hsource : ∃ value, CustomInfo.decode .embeddedSource document.embedded = .ok value) :
    after.IsClosed ∧ rid ≠ 0 := by
  obtain ⟨heaps, row, record, hheaps, hrid, _, hrow, hrecord, rfl⟩ :=
    run_addDocument hrun hclosed.heaps
  obtain ⟨hcount, hfits⟩ := nextRow_eq_ok hrid
  have hreadable : IsReadableInfo (⟨.document, rid⟩, .embeddedSource, document.embedded) :=
    ⟨by simp only; omega, List.mem_cons_self, hsource⟩
  have hgrown := hclosed.grow hheaps
  have hinfo := hgrown.addInfo (.cons hrecord .nil) (by simpa using hreadable)
  constructor
  · exact {
      heaps := hinfo.heaps
      documents := by
        intro other hother
        rcases Array.mem_push.mp hother with hold | rfl
        · exact hinfo.documents other hold
        · exact ⟨document, hrow⟩
      methods := hinfo.methods
      importScopes := hinfo.importScopes
      localScopes := hinfo.localScopes
      customInfo := by
        intro other hother
        rcases Array.mem_push.mp hother with hold | rfl
        · exact hinfo.customInfo other (Array.mem_append_left _ hold)
        · exact hinfo.customInfo other (by simp) }
  · rintro rfl
    simp at hcount

theorem IsClosed.submits {document : UInt32} {entry : MethodRecords} (hclosed : builder.IsClosed)
    (hsubmits : FileRecords.Submits builder document entry after) (hentry : entry.IsEncoded)
    (hdocument : document ≠ 0) : after.IsClosed := by
  cases hsubmits with
  | known _ => exact hclosed
  | @first heaps row added _ hheaps hpoints hempty hadded =>
    have hinfo := (hclosed.grow hheaps).addInfo hadded hentry.infos
    exact {
      heaps := hinfo.heaps
      documents := hinfo.documents
      methods := by
        intro other found hfound
        simp only [Std.HashMap.getElem?_insert] at hfound
        split at hfound
        · cases hfound
          cases hblob : entry.points with
          | none =>
            rw [hempty hblob]
            exact .inl rfl
          | some blob =>
            obtain ⟨hsame, hat⟩ := hpoints blob hblob
            obtain ⟨signature, list, hlist⟩ := hentry.points blob hblob
            exact .inr ⟨hsame ▸ hdocument, signature, list, blob, hat, hlist⟩
        · exact hinfo.methods other found hfound
      importScopes := hinfo.importScopes
      localScopes := hinfo.localScopes
      customInfo := hinfo.customInfo }

theorem IsClosed.addMethods {path : String} {document : UInt32} {entries : List MethodRecords}
    {diagnostics : List Diagnostic} (hclosed : builder.IsClosed)
    (hrun : (FileRecords.addMethods path document entries).run builder = .ok diagnostics after)
    (hentries : ∀ entry ∈ entries, entry.IsEncoded) (hdocument : document ≠ 0) :
    after.IsClosed := by
  induction entries generalizing builder diagnostics with
  | nil =>
    obtain ⟨_, rfl⟩ := run_pure_eq_ok_iff.mp hrun
    exact hclosed
  | cons entry entries ih =>
    obtain ⟨middle, rest, _, hsubmits, hrest, _⟩ :=
      FileRecords.run_addMethods_cons hrun hclosed.heaps
    have hmiddle := hclosed.submits hsubmits (hentries entry List.mem_cons_self) hdocument
    exact ih hmiddle hrest fun other hother => hentries other (List.mem_cons_of_mem _ hother)

/-- Merging a file keeps a builder closed. -/
theorem IsClosed.merge {path : String} {file : FileRecords} {diagnostics : List Diagnostic}
    (hclosed : builder.IsClosed)
    (hrun : (FileRecords.merge path file).run builder = .ok diagnostics after)
    (hfile : file.IsEncoded) : after.IsClosed := by
  obtain ⟨document, first, hdocument, hrun⟩ := run_bind_eq_ok_iff.mp hrun
  obtain ⟨hfirst, hnonzero⟩ := hclosed.addDocument hdocument hfile.source
  obtain ⟨rows, second, hnamespaces, hrun⟩ := run_bind_eq_ok_iff.mp hrun
  obtain ⟨heaps, importScopes, hheaps, himports, rfl⟩ :=
    FileRecords.run_addNamespaces hnamespaces hfirst.heaps
  obtain ⟨_, third, hscopes, hrun⟩ := run_bind_eq_ok_iff.mp hrun
  obtain ⟨localScopes, scopeKeys, hslots, rfl⟩ := FileRecords.run_addMethodScopes hscopes
  have hgrown := hfirst.grow hheaps
  have hthird : IsClosed { first with heaps, importScopes, localScopes, scopeKeys } := {
    heaps := hgrown.heaps
    documents := hgrown.documents
    methods := hgrown.methods
    importScopes := by
      intro row hrow
      rcases himports row hrow with hold | hnew
      · exact hgrown.importScopes row hold
      · exact hnew
    localScopes := by
      intro scope hscope
      rcases hslots scope hscope with hold | hnew
      · exact hgrown.localScopes scope hold
      · exact hnew
    customInfo := hgrown.customInfo }
  exact hthird.addMethods hrun hfile.methods hnonzero

/-- Merging all files keeps a builder closed. -/
theorem IsClosed.mergeAll {outcomes : List FileOutcome} {diagnostics : List Diagnostic}
    (hclosed : builder.IsClosed)
    (hrun : (FileOutcome.mergeAll outcomes).run builder = .ok diagnostics after)
    (houtcomes : ∀ outcome ∈ outcomes, ∀ file, outcome.records = some file → file.IsEncoded) :
    after.IsClosed := by
  refine @FileOutcome.mergeAll_induction (fun _ builder => builder.IsClosed) outcomes [] builder
    after diagnostics hrun hclosed ?_ ?_
  · exact fun _ _ _ _ hbefore => hbefore
  · intro _ outcome file _ _ _ houtcome hrecords hmerge hbefore
    exact hbefore.merge hmerge (houtcomes outcome houtcome file hrecords)

end DebugBuilder

end PortablePdb
