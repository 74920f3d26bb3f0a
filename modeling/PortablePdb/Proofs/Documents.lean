import PortablePdb.Proofs.Merge
import PortablePdb.Proofs.Numbering

namespace PortablePdb

open BlobHeap GuidHeap

/-- A key that no other element has tells an element of a list. -/
theorem filter_key_eq {α κ : Type} [BEq κ] [LawfulBEq κ] {key : α → κ} {xs : List α}
    (hkeys : (xs.map key).Nodup) {x : α} (hx : x ∈ xs) :
    xs.filter (fun other => key other == key x) = [x] := by
  induction xs with
  | nil => cases hx
  | cons first rest ih =>
    obtain ⟨hfresh, hrest⟩ := List.nodup_cons.mp hkeys
    rcases List.mem_cons.mp hx with rfl | hx
    · have hnone : rest.filter (fun other => key other == key x) = [] := by
        rw [List.filter_eq_nil_iff]
        intro other hother hsame
        exact hfresh (List.mem_map.mpr ⟨other, hother, eq_of_beq hsame⟩)
      rw [List.filter_cons_of_pos (by exact beq_self_eq_true (key x)), hnone]
    · have hne : key first ≠ key x := fun hsame => hfresh (hsame ▸ List.mem_map_of_mem hx)
      rw [List.filter_cons_of_neg (by simpa using hne), ih hrest hx]

namespace DebugBuilder

variable {builder after : DebugBuilder} {documents : List SourceDocument}

/-- A document is not added if there is one with its path. -/
theorem contains_of_addDocument {document : SourceDocument} {rid : UInt32}
    (hrun : (addDocument document).run builder = .ok rid after) :
    builder.documentRows.contains document.path = false := by
  obtain ⟨_, _, hget, hrun⟩ := run_bind_eq_ok_iff.mp hrun
  obtain ⟨rfl, rfl⟩ := run_get_eq_ok_iff.mp hget
  obtain ⟨hnew, _⟩ := run_guard_eq_ok_iff.mp hrun
  simpa using hnew

/-- A record is the embedded source of a document with its row. -/
def EmbedsSource (heaps : HeapBuilders) (record : CodedIndex × UInt32 × UInt32)
    (entry : DocumentRow × SourceDocument) : Prop :=
  StoresInfo heaps.blobs.data heaps.guids.data record
    (⟨.document, entry.1.rid⟩, .embeddedSource, entry.2.embedded)

theorem EmbedsSource.grow {heaps later : HeapBuilders} {record : CodedIndex × UInt32 × UInt32}
    {entry : DocumentRow × SourceDocument} (hrecord : EmbedsSource heaps record entry)
    (hlater : later.Extends heaps) : EmbedsSource later record entry :=
  hlater.storesInfo hrecord

/-- The documents are those of some files, in their order and each with its own path and its source,
and all other custom debug information is about methods. -/
structure KeepsDocuments (builder : DebugBuilder) (documents : List SourceDocument) : Prop where
  heaps : builder.heaps.IsSound
  numbered : IsNumbered (·.rid) builder.documents
  fits : builder.documents.size < 0x1000000
  described : List.Forall₂ (fun (row : DocumentRow) document =>
    row.Describes builder.heaps.blobs.data builder.heaps.guids.data document)
    builder.documents.toList documents
  paths : (documents.map (·.path)).Nodup
  known : ∀ document ∈ documents, builder.documentRows.contains document.path = true
  sources : List.Forall₂ (EmbedsSource builder.heaps)
    (builder.customInfo.toList.filter (·.1.table == .document))
    (builder.documents.toList.zip documents)
  parents : ∀ record ∈ builder.customInfo,
    record.1.table = .document ∨ record.1.table = .methodDef

theorem keepsDocuments_empty : KeepsDocuments empty [] where
  heaps := HeapBuilders.isSound_empty
  numbered := isNumbered_empty _
  fits := by decide
  described := .nil
  paths := .nil
  known := nofun
  sources := .nil
  parents := by simp [empty]

theorem KeepsDocuments.addDocument (hkeeps : builder.KeepsDocuments documents)
    {document : SourceDocument} {rid : UInt32}
    (hrun : (addDocument document).run builder = .ok rid after) :
    after.KeepsDocuments (documents ++ [document]) := by
  have hnew := contains_of_addDocument hrun
  obtain ⟨heaps, row, record, hheaps, hnext, rfl, hdescribes, hrecord, rfl⟩ :=
    run_addDocument hrun hkeeps.heaps
  exact {
    heaps := hheaps.sound
    numbered := hkeeps.numbered.push (nextRow_eq_ok hnext).1
    fits := by
      rw [Array.size_push]
      exact Nat.lt_succ_of_le (nextRow_eq_ok hnext).2
    described := by
      have hold := hkeeps.described.imp fun _ _ hrow => hheaps.describes hrow
      rw [Array.toList_push]
      exact List.rel_append hold (.cons hdescribes .nil)
    paths := by
      rw [List.map_append, List.map_singleton, List.nodup_append]
      refine ⟨hkeeps.paths, List.pairwise_singleton _ _, ?_⟩
      intro path hpath last hlast hsame
      obtain ⟨other, hother, rfl⟩ := List.mem_map.mp hpath
      have hknown := hkeeps.known other hother
      rw [hsame, List.mem_singleton.mp hlast, hnew] at hknown
      cases hknown
    known := by
      intro other hother
      rw [Std.HashMap.contains_insert]
      rcases List.mem_append.mp hother with hold | hlast
      · rw [hkeeps.known other hold, Bool.or_true]
      · rw [List.mem_singleton.mp hlast, beq_self_eq_true, Bool.true_or]
    sources := by
      have hold := hkeeps.sources.imp fun _ _ hsource => hsource.grow hheaps
      have hown : [record].filter (·.1.table == .document) = [record] := by
        simp [hrecord.parent]
      rw [Array.toList_push, Array.toList_push, List.filter_append, hown,
        List.zip_append hkeeps.described.length_eq]
      exact List.rel_append hold (.cons hrecord .nil)
    parents := by
      intro other hother
      rcases Array.mem_push.mp hother with hold | rfl
      · exact hkeeps.parents other hold
      · exact .inl (congrArg CodedIndex.table hrecord.parent) }

/-- What adds no documents, and custom debug information about methods only, keeps the documents
that are there. -/
theorem KeepsDocuments.grow (hkeeps : builder.KeepsDocuments documents)
    (hheaps : after.heaps.Extends builder.heaps) (hdocuments : after.documents = builder.documents)
    (hrows : after.documentRows = builder.documentRows)
    {added : List (CodedIndex × UInt32 × UInt32)}
    (hinfo : after.customInfo = builder.customInfo ++ added.toArray)
    (hadded : ∀ record ∈ added, record.1.table = .methodDef) :
    after.KeepsDocuments documents where
  heaps := hheaps.sound
  numbered := hdocuments ▸ hkeeps.numbered
  fits := hdocuments ▸ hkeeps.fits
  described := by
    rw [hdocuments]
    exact hkeeps.described.imp fun _ _ hrow => hheaps.describes hrow
  paths := hkeeps.paths
  known := hrows ▸ hkeeps.known
  sources := by
    have hnone : added.filter (·.1.table == .document) = [] := by
      rw [List.filter_eq_nil_iff]
      intro record hrecord
      rw [hadded record hrecord]
      decide
    rw [hinfo, hdocuments, Array.toList_append, List.filter_append, hnone, List.append_nil]
    exact hkeeps.sources.imp fun _ _ hsource => hsource.grow hheaps
  parents := by
    intro record hrecord
    rw [hinfo] at hrecord
    rcases Array.mem_append.mp hrecord with hold | hnew
    · exact hkeeps.parents record hold
    · exact .inr (hadded record (by simpa using hnew))

/-- The rows of documents fit tokens. -/
theorem KeepsDocuments.rid_lt (hkeeps : builder.KeepsDocuments documents) {row : DocumentRow}
    (hrow : row ∈ builder.documents) : row.rid.toNat < 0x1000000 := by
  obtain ⟨i, hi, rfl⟩ := Array.mem_iff_getElem.mp hrow
  have hnumber := hkeeps.numbered i hi
  have hfits := hkeeps.fits
  simp only at hnumber
  omega

/-- What is about a document is about one that is there. -/
theorem KeepsDocuments.exists_row (hkeeps : builder.KeepsDocuments documents)
    {record : CodedIndex × UInt32 × UInt32} (hrecord : record ∈ builder.customInfo)
    (htable : record.1.table = .document) :
    ∃ row ∈ builder.documents, record.1 = ⟨.document, row.rid⟩ := by
  have hmem : record ∈ builder.customInfo.toList.filter (·.1.table == .document) :=
    List.mem_filter.mpr ⟨Array.mem_toList_iff.mpr hrecord, beq_iff_eq.mpr htable⟩
  obtain ⟨⟨row, document⟩, hentry, hsource⟩ := exists_of_forall₂ hkeeps.sources hmem
  exact ⟨row, Array.mem_toList_iff.mp (List.of_mem_zip hentry).1, StoresInfo.parent hsource⟩

theorem KeepsDocuments.map_fst_zip (hkeeps : builder.KeepsDocuments documents) :
    (builder.documents.toList.zip documents).map (·.1) = builder.documents.toList :=
  List.map_fst_zip hkeeps.described.length_eq.le

/-- Each row of documents is that of a document. -/
theorem KeepsDocuments.exists_entry (hkeeps : builder.KeepsDocuments documents) {row : DocumentRow}
    (hrow : row ∈ builder.documents) :
    ∃ document, (row, document) ∈ builder.documents.toList.zip documents := by
  rw [← Array.mem_toList_iff, ← hkeeps.map_fst_zip] at hrow
  obtain ⟨⟨_, document⟩, hentry, rfl⟩ := List.mem_map.mp hrow
  exact ⟨document, hentry⟩

/-- All that is stored about a document is its embedded source. -/
theorem KeepsDocuments.storesSource (hkeeps : builder.KeepsDocuments documents)
    {entry : DocumentRow × SourceDocument}
    (hentry : entry ∈ builder.documents.toList.zip documents) :
    List.Forall₂ (StoresInfo builder.heaps.blobs.data builder.heaps.guids.data)
      (builder.customInfo.toList.filter (·.1 == ⟨.document, entry.1.rid⟩))
      [(⟨.document, entry.1.rid⟩, .embeddedSource, entry.2.embedded)] := by
  have hsources : List.Forall₂ (EmbedsSource builder.heaps)
      (builder.customInfo.toList.filter (·.1 == ⟨.document, entry.1.rid⟩))
      ((builder.documents.toList.zip documents).filter (·.1.rid == entry.1.rid)) := by
    have hown : builder.customInfo.toList.filter (·.1 == ⟨.document, entry.1.rid⟩) =
        (builder.customInfo.toList.filter (·.1.table == .document)).filter
          (·.1 == ⟨.document, entry.1.rid⟩) := by
      rw [List.filter_filter]
      apply List.filter_congr
      intro record _
      by_cases hparent : record.1 = ⟨.document, entry.1.rid⟩ <;> simp [hparent]
    rw [hown]
    refine List.rel_filter ?_ hkeeps.sources
    intro record other hsource
    simp [StoresInfo.parent hsource]
  have hkeys : ((builder.documents.toList.zip documents).map (·.1.rid)).Nodup := by
    have hnodup := hkeeps.numbered.nodup
    rwa [← hkeeps.map_fst_zip, List.map_map] at hnodup
  rw [filter_key_eq hkeys hentry] at hsources
  obtain ⟨record, rest, hsource, hrest, hrecords⟩ := List.forall₂_cons_right_iff.mp hsources
  rw [hrecords, List.forall₂_nil_right_iff.mp hrest]
  exact .cons hsource .nil

/-- Merging a file adds its document. -/
theorem KeepsDocuments.merge (hkeeps : builder.KeepsDocuments documents) {path : String}
    {file : FileRecords} {diagnostics : List Diagnostic}
    (hrun : (FileRecords.merge path file).run builder = .ok diagnostics after) :
    after.KeepsDocuments (documents ++ [file.document]) := by
  obtain ⟨document, first, hdocument, hrest⟩ := run_bind_eq_ok_iff.mp hrun
  obtain ⟨rows, second, hnamespaces, hrest⟩ := run_bind_eq_ok_iff.mp hrest
  obtain ⟨_, third, hscopes, hmethods⟩ := run_bind_eq_ok_iff.mp hrest
  have hfirst := hkeeps.addDocument hdocument
  obtain ⟨heaps, importScopes, hheaps, _, rfl⟩ :=
    FileRecords.run_addNamespaces hnamespaces hfirst.heaps
  obtain ⟨localScopes, scopeKeys, _, rfl⟩ := FileRecords.run_addMethodScopes hscopes
  obtain ⟨later, methods, machines, added, hlater, hadded, rfl⟩ :=
    FileRecords.run_addMethods hmethods hheaps.sound
  exact hfirst.grow (hlater.trans hheaps) rfl rfl rfl hadded

/-- Merging all files adds the documents of those that have records. -/
theorem KeepsDocuments.mergeAll (hkeeps : builder.KeepsDocuments documents)
    {outcomes : List FileOutcome} {diagnostics : List Diagnostic}
    (hrun : (FileOutcome.mergeAll outcomes).run builder = .ok diagnostics after) :
    after.KeepsDocuments
      (documents ++ outcomes.flatMap fun outcome => (outcome.records.map (·.document)).toList) := by
  have hempty : builder.KeepsDocuments (documents ++ [].flatMap fun outcome : FileOutcome =>
      (outcome.records.map (·.document)).toList) := by
    simpa using hkeeps
  refine FileOutcome.mergeAll_induction (motive := fun before builder => builder.KeepsDocuments
    (documents ++ before.flatMap fun outcome => (outcome.records.map (·.document)).toList))
    hrun hempty ?_ ?_
  · intro before outcome builder hnone hbefore
    simpa [hnone] using hbefore
  · intro before outcome file builder after diagnostics _ hsome hmerge hbefore
    simpa [hsome] using hbefore.merge hmerge

end DebugBuilder

end PortablePdb
