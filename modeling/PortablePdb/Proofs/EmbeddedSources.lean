import PortablePdb.Proofs.Resilience

namespace PortablePdb

namespace CustomInfo

/-- A text that a size can measure is embedded, and it is read back unless it is empty. -/
theorem exists_encodeSource {compress : Bytes → Bytes} (hcompress : Deflate.IsCompressor compress)
    {text : String} (hsize : text.utf8ByteSize < 0x80000000) :
    ∃ blob content, encodeSource text compress = .ok blob ∧
      decode .embeddedSource blob = .ok (.embeddedSource content (text ≠ "")) ∧
      (content = text ↔ text ≠ "") := by
  have hblob : encodeSource text compress =
      .ok (Bytes.le32 text.utf8ByteSize.toUInt32 ++ compress (Bytes.ofText text)) := by
    rw [encodeSource, Bytes.size_ofText, if_pos hsize]
  obtain ⟨content, hread, hsame⟩ := decode_encodeSource hcompress hblob
  exact ⟨_, content, hblob, hread, hsame⟩

end CustomInfo

namespace Container

variable {documents : Array Document} {row : CustomInfoRow} {record : InfoRecord}
  {rid : UInt32} {i : Nat}

/-- A record about anything else leaves a document as it is. -/
theorem getElem?_addSource_of_ne (hrid : rid.toNat = i + 1)
    (hother : row.parent ≠ ⟨.document, rid⟩) :
    (addSource documents row record)[i]? = documents[i]? := by
  unfold addSource
  split
  · split
    · next hdocument =>
      simp only [Bool.and_eq_true, decide_eq_true_eq, ne_eq, ← UInt32.toNat_inj] at hdocument
      have hplace : row.parent.row.toNat - 1 ≠ i := by
        intro hsame
        apply hother
        have hrow : row.parent.row = rid := by
          rw [← UInt32.toNat_inj, hrid]
          have hpos := hdocument.2
          simp only [UInt32.toNat_zero] at hpos
          omega
        rw [← hrow, ← hdocument.1]
      rw [Array.getElem?_modify, if_neg hplace]
    · rfl
  · rfl

/-- A record that embeds a text in a document gives it this text. -/
theorem getElem?_addSource (hrid : rid.toNat = i + 1) (hparent : row.parent = ⟨.document, rid⟩)
    {text : String} {isCompressed : Bool}
    (hvalue : record.value = .embeddedSource text isCompressed) :
    (addSource documents row record)[i]? =
      documents[i]?.map fun document => { document with source := some text } := by
  have hne : rid ≠ 0 := by
    rintro rfl
    cases hrid
  have hplace : rid.toNat - 1 = i := by omega
  simp only [addSource, hvalue, hparent, hne, hplace, ne_eq, not_false_eq_true, decide_true,
    Bool.and_self, if_true, Array.getElem?_modify]

/-- If one record embeds a text in a document, this is the text that the document gets. -/
theorem getElem?_addSources {entries : List (CustomInfoRow × InfoRecord)}
    {entry : CustomInfoRow × InfoRecord} (hrid : rid.toNat = i + 1)
    (hown : entries.filter (·.1.parent == ⟨.document, rid⟩) = [entry])
    {text : String} {isCompressed : Bool}
    (hvalue : entry.2.value = .embeddedSource text isCompressed) :
    (entries.foldl (fun documents entry => addSource documents entry.1 entry.2) documents)[i]? =
      documents[i]?.map fun document => { document with source := some text } := by
  have hothers {others : List (CustomInfoRow × InfoRecord)} {documents : Array Document}
      (hnone : ∀ other ∈ others, ¬ (other.1.parent == ⟨.document, rid⟩) = true) :
      (others.foldl (fun documents entry => addSource documents entry.1 entry.2) documents)[i]? =
        documents[i]? := by
    induction others generalizing documents with
    | nil => rfl
    | cons other others ih =>
      obtain ⟨hother, hrest⟩ := List.forall_mem_cons.mp hnone
      rw [List.foldl_cons, ih hrest, getElem?_addSource_of_ne hrid (by simpa using hother)]
  obtain ⟨before, after, rfl, hbefore, hparent, hafter⟩ := List.filter_eq_cons_iff.mp hown
  rw [List.foldl_append, List.foldl_cons, hothers (List.filter_eq_nil_iff.mp hafter),
    getElem?_addSource hrid (eq_of_beq hparent) hvalue, hothers hbefore]

end Container

namespace Generation.Generates

variable {module : Module} {decompiler : Decompiler} {options : GeneratorOptions}
  {compress : Bytes → Bytes} {generated : GeneratedContainer} {builder : DebugBuilder}
  {tables : DebugTables} {diagnostics : List Diagnostic} {container : Container}
  {documents : List SourceDocument}

/-- Of the records of a container about a document there is one, and it is what the embedded source
of the document is read as. -/
theorem exists_sourceRecord (hgenerates : Generates module decompiler options compress generated
      builder tables diagnostics)
    (hlists : container.Lists tables) (hdocuments : builder.KeepsDocuments documents)
    {entry : DocumentRow × SourceDocument}
    (hentry : entry ∈ builder.documents.toList.zip documents) :
    ∃ record : CustomInfoRow × InfoRecord,
      (tables.customInfo.toList.zip container.info.toList).filter
        (·.1.parent == ⟨.document, entry.1.rid⟩) = [record] ∧
      CustomInfo.decode .embeddedSource entry.2.embedded = .ok record.2.value := by
  have hrows := hgenerates.forall₂_infoRows (hdocuments.storesSource hentry)
  obtain ⟨row, rest, hinfo, hrest, hown⟩ := List.forall₂_cons_right_iff.mp hrows
  rw [List.forall₂_nil_right_iff.mp hrest] at hown
  have hfst : (tables.customInfo.toList.zip container.info.toList).map (·.1) =
      tables.customInfo.toList := List.map_fst_zip hlists.info.length_eq.le
  rw [← hfst, List.filter_map] at hown
  obtain ⟨record, hrecord, rfl⟩ := List.map_eq_singleton_iff.mp hown
  refine ⟨record, hrecord, ?_⟩
  have hmem : record ∈ tables.customInfo.toList.zip container.info.toList :=
    List.mem_of_mem_filter (hrecord ▸ List.mem_singleton_self record)
  exact (Container.reads_of_infoOfRow (List.forall₂_zip hlists.info hmem) hinfo
    (by simp [CustomKind.known])).2

/-- A document of a container has the text that its embedded source is read as. -/
theorem source_eq (hgenerates : Generates module decompiler options compress generated
      builder tables diagnostics)
    (hread : Container.ofBytes generated.data = .ok container)
    (hdocuments : builder.KeepsDocuments documents) {i : Nat} (hi : i < container.documents.size)
    (hsource : i < documents.length) {content : String} {isCompressed : Bool}
    (hdecode : CustomInfo.decode .embeddedSource documents[i].embedded =
      .ok (.embeddedSource content isCompressed)) :
    container.documents[i].source = some content := by
  obtain ⟨contentId, _, hencode⟩ := hgenerates.encode_eq
  obtain ⟨stream, hlocates, hentries⟩ :=
    Container.exists_stream_of_ofBytes (encode_of_encodeWithId hencode) hread
  have hparents : ∀ row ∈ tables.customInfo, row.parent.row.toNat < 0x1000000 :=
    fun row hrow => hgenerates.customInfo_row_lt hrow
  have hrows := (hlocates.holds hparents).reads hgenerates.allNumbered
  obtain ⟨initial, _, hsources⟩ := hentries.documents
  rw [hrows.customInfo, ← Array.foldl_toList, Array.toList_zip] at hsources
  have hrow : i < builder.documents.size := by
    rwa [← Array.length_toList, hdocuments.described.length_eq]
  have hentry : (builder.documents[i], documents[i]) ∈ builder.documents.toList.zip documents :=
    List.mem_iff_getElem.mpr ⟨i, by simp [hrow, hsource], by simp⟩
  obtain ⟨record, hown, hvalue⟩ :=
    hgenerates.exists_sourceRecord (hgenerates.lists hread) hdocuments hentry
  have hplace : container.documents[i]? =
      initial[i]?.map fun document => { document with source := some content } := by
    rw [hdecode] at hvalue
    rw [hsources]
    exact Container.getElem?_addSources (hdocuments.numbered i hrow) hown
      (Except.ok.inj hvalue).symm
  rw [Array.getElem?_eq_getElem hi] at hplace
  obtain ⟨document, _, hsame⟩ := Option.map_eq_some_iff.mp hplace.symm
  rw [← hsame]

/-- The documents of a container are those of a run, each with the text that its embedded source is
read as. -/
theorem forall₂_sources (hgenerates : Generates module decompiler options compress generated
      builder tables diagnostics)
    (hread : Container.ofBytes generated.data = .ok container)
    (hdocuments : builder.KeepsDocuments documents) :
    List.Forall₂ (fun (source : SourceDocument) (document : Document) =>
      document.name = source.path ∧ document.hash = source.hash.toArray ∧
      ∀ content isCompressed, CustomInfo.decode .embeddedSource source.embedded =
        .ok (.embeddedSource content isCompressed) → document.source = some content)
      documents container.documents.toList := by
  have hnamed := hgenerates.forall₂_documents (hgenerates.lists hread) hdocuments
  rw [List.forall₂_iff_get] at hnamed ⊢
  obtain ⟨hlength, hnamed⟩ := hnamed
  refine ⟨hlength, fun i hsource hi => ?_⟩
  obtain ⟨hname, hhash⟩ := hnamed i hsource hi
  exact ⟨hname, hhash, fun content isCompressed hdecode =>
    hgenerates.source_eq hread hdocuments hi hsource hdecode⟩

end Generation.Generates

/-- A document has the path of a file and the digest of its text, and the text is read back unless
it is empty. -/
structure Document.IsOfText (document : Document) (path text : String) : Prop where
  name : document.name = path
  hash : document.hash = (Sha256.digest (Bytes.ofText text)).toArray
  source : ∃ content, document.source = some content ∧ (content = text ↔ text ≠ "")

namespace Generation

variable {module : Module} {decompiler : Decompiler} {options : GeneratorOptions}
  {compress : Bytes → Bytes} {generated : GeneratedContainer}

/-- The source files of a module for which there are documents. -/
def documentedFiles (module : Module) (decompiler : Decompiler) (options : GeneratorOptions)
    (compress : Bytes → Bytes) : List SourceFile :=
  (SourceFile.ofModule module decompiler options.nestedDirectories).filter fun file =>
    (FileOutcome.ofFile module decompiler options.banner file compress).records.isSome

/-- The document of a file is made of what the file was decompiled to, under the banner. -/
theorem forall₂_documentsOf :
    List.Forall₂ (fun file document => ∃ decompiled,
      decompiler.decompile file.types = .ok decompiled ∧
      SourceDocument.ofText file.path (FileRecords.sourceOf options.banner decompiled).2 compress =
        .ok document)
      (documentedFiles module decompiler options compress)
      (documentsOf module decompiler options compress) := by
  unfold documentedFiles documentsOf outcomesOf
  induction SourceFile.ofModule module decompiler options.nestedDirectories with
  | nil => exact .nil
  | cons file files ih =>
    rw [List.map_cons, List.flatMap_cons, List.filter_cons]
    cases hrecords :
        (FileOutcome.ofFile module decompiler options.banner file compress).records with
    | none => exact ih
    | some records =>
      obtain ⟨decompiled, hdecompiled, hof⟩ := FileRecords.exists_areOf hrecords
      exact .cons ⟨decompiled, hdecompiled, hof.document⟩ ih

/-- The source texts of a container are those that its documents were made of, in the order of the
files, but that an empty one is read as something else. -/
theorem generate_embeds_sources (hcompress : Deflate.IsCompressor compress) :
    (∀ text : String, text.utf8ByteSize < 0x80000000 → ∃ blob content,
      CustomInfo.encodeSource text compress = .ok blob ∧
      CustomInfo.decode .embeddedSource blob = .ok (.embeddedSource content (text ≠ "")) ∧
      (content = text ↔ text ≠ "")) ∧
    ∀ (module : Module) (decompiler : Decompiler) (options : GeneratorOptions)
      (newPool : PoolCreation) (generated : GeneratedContainer),
      generate module decompiler options compress newPool = .ok generated →
      (generated.data.size < 0x100000000 →
        ∃ container, Container.ofBytes generated.data = .ok container) ∧
      ∀ container, Container.ofBytes generated.data = .ok container →
        List.Forall₂ (fun file (document : Document) => ∃ decompiled,
          decompiler.decompile file.types = .ok decompiled ∧
          document.IsOfText file.path (FileRecords.sourceOf options.banner decompiled).2)
          (documentedFiles module decompiler options compress) container.documents.toList := by
  refine ⟨fun text hsize => CustomInfo.exists_encodeSource hcompress hsize, ?_⟩
  intro module decompiler options newPool generated hgenerated
  obtain ⟨builder, tables, diagnostics, hgenerates⟩ := exists_generates hgenerated
  refine ⟨hgenerates.exists_ofBytes hcompress, fun container hread => ?_⟩
  apply forall₂_trans forall₂_documentsOf
    (hgenerates.forall₂_sources hread hgenerates.keepsDocuments)
  rintro file source document ⟨decompiled, hdecompiled, hof⟩ ⟨hname, hhash, hcontent⟩
  obtain ⟨blob, hblob, hof⟩ := bind_eq_ok_iff.mp hof
  obtain ⟨content, hdecode, hsame⟩ := CustomInfo.decode_encodeSource hcompress hblob
  cases pure_eq_ok_iff.mp hof
  exact ⟨decompiled, hdecompiled, hname, hhash, content, hcontent content _ hdecode, hsame⟩

/-- A decompiler that finds the text of a file, but no functions in it. -/
def listingDecompiler : Decompiler :=
  { builtDecompiler with
    decompile := fun _ => .ok { source := "class A;", syntaxTrees := [⟨.other, none, []⟩] } }

def listingOptions : GeneratorOptions :=
  { sampleOptions with banner := some "Listing" }

/-- The document of the text, which is stored in one block. -/
def listingDocument : SourceDocument where
  path := "A.cs"
  hash := Sha256.digest (Bytes.ofText "// Listing\nclass A;")
  embedded := #[19, 0, 0, 0, 1, 19, 0, 236, 255] ++ Bytes.ofText "// Listing\nclass A;"

theorem ofModule_listing : SourceFile.ofModule builtModule listingDecompiler true =
    [⟨"A.cs", [.typeDef 2]⟩] := by
  decide

theorem records_listing : (FileOutcome.ofFile builtModule listingDecompiler (some "Listing")
    ⟨"A.cs", [.typeDef 2]⟩).records = some {
      document := listingDocument, scopes := { functions := #[] }, methods := [] } := by
  decide +kernel

theorem isWithin_listing :
    IsWithin builtModule listingDecompiler listingOptions Deflate.deflate := by
  have houtcomes : outcomesOf builtModule listingDecompiler listingOptions Deflate.deflate =
      [FileOutcome.ofFile builtModule listingDecompiler (some "Listing")
        ⟨"A.cs", [.typeDef 2]⟩] := by
    change (SourceFile.ofModule builtModule listingDecompiler true).map _ = _
    rw [ofModule_listing]
    rfl
  exact isWithin_of_document (by decide) houtcomes records_listing rfl (by decide)
    rfl (by decide)

theorem generate_embeds_sources_listing : ∃ generated container document blob,
    Deflate.IsCompressor Deflate.deflate ∧
      generate builtModule listingDecompiler listingOptions = .ok generated ∧
      generated.data.size < 0x100000000 ∧ Container.ofBytes generated.data = .ok container ∧
      container.documents.toList = [document] ∧ document.name = "A.cs" ∧
      document.hash = (Sha256.digest (Bytes.ofText "// Listing\nclass A;")).toArray ∧
      document.source = some "// Listing\nclass A;" ∧
      CustomInfo.encodeSource "class A;" = .ok blob ∧
      CustomInfo.decode .embeddedSource blob = .ok (.embeddedSource "class A;" true) := by
  obtain ⟨hblobs, hcontainers⟩ := generate_embeds_sources Deflate.isCompressor_deflate
  obtain ⟨generated, hgenerated, hsize⟩ :=
    isWithin_listing.exists_generate isCounted_builtModule rfl
      (by simp [listingOptions, sampleOptions])
  obtain ⟨hexists, hlists⟩ := hcontainers _ _ _ _ _ hgenerated
  obtain ⟨container, hread⟩ := hexists hsize
  have hfiles : documentedFiles builtModule listingDecompiler listingOptions Deflate.deflate =
      [⟨"A.cs", [.typeDef 2]⟩] := by
    change (SourceFile.ofModule builtModule listingDecompiler true).filter (fun file =>
      (FileOutcome.ofFile builtModule listingDecompiler (some "Listing") file).records.isSome) = _
    rw [ofModule_listing, List.filter_cons, records_listing]
    rfl
  have hdocuments := hlists container hread
  rw [hfiles] at hdocuments
  obtain ⟨document, rest, ⟨decompiled, hdecompiled, hof⟩, hrest, hall⟩ :=
    List.forall₂_cons_left_iff.mp hdocuments
  cases hdecompiled
  rw [List.forall₂_nil_left_iff.mp hrest] at hall
  obtain ⟨content, hsource, hsame⟩ := hof.source
  rw [hsame.mpr (by decide)] at hsource
  obtain ⟨blob, text, hblob, hdecode, htext⟩ := hblobs "class A;" (by decide)
  rw [htext.mpr (by decide)] at hdecode
  exact ⟨generated, container, document, blob, Deflate.isCompressor_deflate, hgenerated, hsize,
    hread, hall, hof.name, hof.hash, hsource, hblob, hdecode⟩

/-- Where the text of a file is empty, its document has the digest of the empty text but two
characters for a text, which are the stream that the empty text was compressed to. -/
theorem generate_misreads_empty_source :
    Deflate.IsCompressor Deflate.deflate ∧
    CustomInfo.encodeSource "" = .ok #[0, 0, 0, 0, 3, 0] ∧
    CustomInfo.decode .embeddedSource #[0, 0, 0, 0, 3, 0] =
      .ok (.embeddedSource "\x03\x00" false) ∧
    ∃ generated container document,
      generate sampleModule sampleDecompiler sampleOptions = .ok generated ∧
      Container.ofBytes generated.data = .ok container ∧
      container.documents.toList = [document] ∧
      document.hash = (Sha256.digest (Bytes.ofText "")).toArray ∧
      document.source = some "\x03\x00" := by
  have hdecode : CustomInfo.decode .embeddedSource #[0, 0, 0, 0, 3, 0] =
      .ok (.embeddedSource "\x03\x00" false) := by
    decide
  refine ⟨Deflate.isCompressor_deflate, by decide, hdecode, ?_⟩
  obtain ⟨generated, hgenerated, hsize⟩ := exists_generate_sample
  obtain ⟨builder, tables, diagnostics, hgenerates⟩ := exists_generates hgenerated
  obtain ⟨container, hread⟩ :=
    hgenerates.exists_ofBytes Deflate.isCompressor_deflate (by omega)
  have hsources := hgenerates.forall₂_sources hread hgenerates.keepsDocuments
  have hdocuments : documentsOf sampleModule sampleDecompiler sampleOptions Deflate.deflate =
      [sampleRecords.document] := by
    rw [documentsOf, outcomesOf_sample]
    rfl
  rw [hdocuments] at hsources
  obtain ⟨document, rest, ⟨_, hhash, hcontent⟩, hrest, hall⟩ :=
    List.forall₂_cons_left_iff.mp hsources
  rw [List.forall₂_nil_left_iff.mp hrest] at hall
  have hdigest : sampleRecords.document.hash = Sha256.digest (Bytes.ofText "") := by
    decide +kernel
  exact ⟨generated, container, document, hgenerated, hread, hall, hdigest ▸ hhash,
    hcontent _ _ hdecode⟩

end Generation

end PortablePdb
