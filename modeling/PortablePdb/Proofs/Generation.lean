import PortablePdb.Generation.Generate
import PortablePdb.Proofs.Order
import PortablePdb.Proofs.Outcomes
import PortablePdb.Proofs.Patch

namespace PortablePdb

namespace Generation

variable {module : Module} {decompiler : Decompiler} {options : GeneratorOptions}
  {compress : Bytes → Bytes} {newPool : PoolCreation} {generated : GeneratedContainer}

/-- What comes of the source files of a module. -/
def outcomesOf (module : Module) (decompiler : Decompiler) (options : GeneratorOptions)
    (compress : Bytes → Bytes) : List FileOutcome :=
  (SourceFile.ofModule module decompiler options.nestedDirectories).map fun file =>
    FileOutcome.ofFile module decompiler options.banner file compress

theorem isOwn_of_mem_outcomesOf {outcome : FileOutcome}
    (houtcome : outcome ∈ outcomesOf module decompiler options compress) : outcome.IsOwn := by
  obtain ⟨source, _, rfl⟩ := List.mem_map.mp houtcome
  exact FileOutcome.isOwn_ofFile

/-- A run that is never cancelled gets through all files. -/
theorem mapM_process (files : List SourceFile) :
    (process module decompiler options (fun _ => false) files compress).mapM id =
      some (files.map fun file =>
        FileOutcome.ofFile module decompiler options.banner file compress) := by
  have hentries (entries : List (SourceFile × Nat)) :
      (entries.map fun entry => some
        (FileOutcome.ofFile module decompiler options.banner entry.1 compress)).mapM id =
      some ((entries.map (·.1)).map fun file =>
        FileOutcome.ofFile module decompiler options.banner file compress) := by
    induction entries with
    | nil => rfl
    | cons entry entries ih => simp [ih]
  simpa [process] using hentries files.zipIdx

/-- A run that succeeds: the merged files, the finished tables, and the report about them. -/
structure Generates (module : Module) (decompiler : Decompiler) (options : GeneratorOptions)
    (compress : Bytes → Bytes) (generated : GeneratedContainer) (builder : DebugBuilder)
    (tables : DebugTables) (diagnostics : List Diagnostic) : Prop where
  merge_eq : (FileOutcome.mergeAll (outcomesOf module decompiler options compress)).run .empty =
    .ok diagnostics builder
  finish_eq : builder.finish module.methodCount = .ok tables
  encode_eq : ∃ contentId, contentIdOf module options = .ok contentId ∧
    encodeWithId module tables contentId =
      .ok (generated.data, generated.report.contentId, generated.report.contentIdSource)
  documents : generated.report.documents = tables.documents.size
  methodsWithPoints : generated.report.methodsWithPoints = tables.methodsWithPoints
  methodRows : generated.report.methodRows = tables.methods.size
  localScopes : generated.report.localScopes = tables.localScopes.size
  importScopes : generated.report.importScopes = tables.importScopes.size
  stateMachines : generated.report.stateMachines = tables.stateMachines.size
  customInfo : generated.report.customInfo = tables.customInfo.size
  size : generated.report.size = generated.data.size
  diagnostics : ∃ minted, generated.report.diagnostics = minted ++ diagnostics ∧
    ∀ diagnostic ∈ minted, diagnostic.category = .contentId

theorem exists_generates
    (hgenerated : generate module decompiler options compress newPool = .ok generated) :
    ∃ builder tables diagnostics,
      Generates module decompiler options compress generated builder tables diagnostics := by
  unfold generate generateWatched at hgenerated
  split at hgenerated
  · cases hgenerated
  · cases hgenerated
  · next contentId hcontentId _ =>
    simp only [mapM_process] at hgenerated
    unfold assemble at hgenerated
    split at hgenerated
    · cases hgenerated
    · next diagnostics builder hmerge =>
      obtain ⟨tables, htables, hgenerated⟩ := bind_eq_ok_iff.mp hgenerated
      obtain ⟨⟨data, id, source⟩, hencode, hgenerated⟩ := bind_eq_ok_iff.mp hgenerated
      rw [← pure_eq_ok_iff.mp hgenerated]
      refine ⟨builder, tables, diagnostics, {
        merge_eq := hmerge
        finish_eq := htables
        encode_eq := ⟨contentId, hcontentId, hencode⟩
        documents := rfl
        methodsWithPoints := rfl
        methodRows := rfl
        localScopes := rfl
        importScopes := rfl
        stateMachines := rfl
        customInfo := rfl
        size := rfl
        diagnostics := ⟨_, rfl, ?_⟩ }⟩
      intro diagnostic hdiagnostic
      split at hdiagnostic
      · rw [List.mem_singleton.mp hdiagnostic]
        rfl
      · cases hdiagnostic

/-- Whatever the content id comes from, the container is written with it. -/
theorem encode_of_encodeWithId {tables : DebugTables}
    {contentId : Option (ContentId × ContentIdSource)} {data : Bytes} {id : ContentId}
    {source : ContentIdSource}
    (hencode : encodeWithId module tables contentId = .ok (data, id, source)) :
    tables.encode id module.entryPoint module.rowCounts = .ok data := by
  cases contentId with
  | some given =>
    obtain ⟨written, hwritten, hencode⟩ := bind_eq_ok_iff.mp hencode
    cases hencode
    exact hwritten
  | none =>
    obtain ⟨blank, hblank, hencode⟩ := bind_eq_ok_iff.mp hencode
    obtain ⟨written, hwritten, hencode⟩ := bind_eq_ok_iff.mp hencode
    cases hencode
    have hsize : blank.size < 0x100000000 := by
      by_contra hlarge
      rw [DebugTables.withId_overflow hblank (Nat.not_lt.mp hlarge)] at hwritten
      cases hwritten
    obtain ⟨result, hresult, hsame⟩ :=
      DebugTables.withId_encode hblank hsize (ContentId.ofContent blank)
    rw [hwritten] at hsame
    cases hsame
    exact hresult

theorem isClosed_of_generates {builder : DebugBuilder} {tables : DebugTables}
    {diagnostics : List Diagnostic} (hcompress : Deflate.IsCompressor compress)
    (hgenerates : Generates module decompiler options compress generated builder tables
      diagnostics) : builder.IsClosed := by
  refine DebugBuilder.isClosed_empty.mergeAll hgenerates.merge_eq ?_
  intro outcome houtcome file hfile
  obtain ⟨source, _, rfl⟩ := List.mem_map.mp houtcome
  exact FileRecords.isEncoded_of_ofFile hcompress hfile

/-- A module with one method. -/
def sampleModule : Module where
  name := "A"
  methods := #[⟨.methodDef 1, "M", .typeDef 1, some ⟨2, 0⟩⟩]
  types := #[⟨.typeDef 1, "", "A", none, #[.methodDef 1]⟩]
  rowCounts := RowCounts.none.setTable .methodDef 1
  entryPoint := ⟨0⟩
  debugEntries := []
  codeView := none

/-- A decompiler that finds two functions in the method, of which one has a point. -/
def sampleDecompiler : Decompiler where
  decompile _ := .ok {
    syntaxTrees := [⟨.method, some 1, []⟩, ⟨.lambda, some 2, []⟩]
    functions := [{ id := 1, method := .methodDef 1 }, { id := 2, method := .methodDef 1 }]
    points := .points (.ofList [(1, [.hidden 0])]) }
  isHidden _ := false

def sampleOptions : GeneratorOptions where
  contentId := some .zero

/-- The records of the decompiled file, with the digest of an empty text. -/
def sampleRecords : FileRecords where
  document := {
    path := "A.cs"
    hash := #v[227, 176, 196, 66, 152, 252, 28, 20, 154, 251, 244, 200, 153, 111, 185, 36,
      39, 174, 65, 228, 100, 155, 147, 76, 164, 149, 153, 27, 120, 82, 184, 85]
    embedded := #[0, 0, 0, 0, 3, 0] }
  scopes :=
    { methods := #[⟨.methodDef 1, 0, 2⟩, ⟨.methodDef 1, 0, 2⟩], functions := #[1, 2] }
  methods := [⟨.methodDef 1, some #[0, 0, 0, 0], {}⟩, ⟨.methodDef 1, none, {}⟩]

/-- Some records are all that comes of a module with one source file if they come of this file. -/
theorem outcomesOf_of_records {types : List Token} {records : FileRecords}
    (hfiles : SourceFile.ofModule module decompiler true = [⟨"A.cs", types⟩])
    (hparts : (FileOutcome.ofFile module decompiler none ⟨"A.cs", types⟩).records =
        some records ∧
      (FileOutcome.ofFile module decompiler none ⟨"A.cs", types⟩).diagnostics = []) :
    outcomesOf module decompiler sampleOptions Deflate.deflate =
      [{ path := "A.cs", records := some records }] := by
  obtain ⟨hrecords, hdiagnostics⟩ := hparts
  have hpath : (FileOutcome.ofFile module decompiler none ⟨"A.cs", types⟩).path = "A.cs" :=
    FileRecords.path_ofFile
  change (SourceFile.ofModule module decompiler true).map _ = _
  rw [hfiles, List.map_singleton, ← hrecords, ← hdiagnostics]
  nth_rewrite 2 [← hpath]
  rfl

theorem outcomesOf_sample :
    outcomesOf sampleModule sampleDecompiler sampleOptions Deflate.deflate =
      [{ path := "A.cs", records := some sampleRecords }] := by
  have hfiles : SourceFile.ofModule sampleModule sampleDecompiler true =
      [⟨"A.cs", [.typeDef 1]⟩] := by decide
  exact outcomesOf_of_records hfiles (by decide +kernel)

/-- The blobs of the run: the name of the file, its path, the digest and the source, and the points
of the method. -/
def sampleBlobs : List Bytes :=
  [#[65, 46, 99, 115], #[47, 1], sampleRecords.document.hash.toArray, #[0, 0, 0, 0, 3, 0],
    #[0, 0, 0, 0]]

def sampleGuids : List Guid :=
  [sha256Algorithm, csharpLanguage, CustomKind.embeddedSource.guid]

/-- The path is one part behind the empty one before the separator. -/
theorem run_encode_path {blobs : BlobHeap.Builder}
    (hpart : (BlobHeap.Builder.add #[65, 46, 99, 115]).run .empty = .ok 1 blobs) :
    (DocumentName.encode "A.cs").run .empty = .ok #[47, 1] blobs := by
  have hsplit : Text.split DocumentName.separator "A.cs".toList = ["A.cs".toList] := by
    decide
  have hpath : Bytes.ofText "A.cs" = #[65, 46, 99, 115] := by decide
  refine run_bind_eq_ok_iff.mpr ⟨[1], blobs, ?_, rfl⟩
  rw [hsplit]
  refine run_bind_eq_ok_iff.mpr ⟨1, blobs, ?_, rfl⟩
  exact (congrArg (fun value => (BlobHeap.Builder.add value).run .empty) hpath).trans hpart

/-- The row of the document is the first one, whatever its text. -/
theorem exists_documentRow_of_path (hash : Vector UInt8 32) (embedded : Bytes) : ∃ blobs guids,
    (DebugBuilder.documentRow ⟨"A.cs", hash, embedded⟩ 1).run {} =
      .ok ⟨1, 6, 1, 9, 2⟩ { blobs, guids } ∧
    blobs.Lists [#[65, 46, 99, 115], #[47, 1], hash.toArray] ∧
    guids.Lists [sha256Algorithm, csharpLanguage] := by
  have hdigest : hash.toArray.size = 32 := hash.size_toArray
  have hother : hash.toArray ∉ [#[65, 46, 99, 115], #[47, 1]] := by
    simp only [List.mem_cons, List.not_mem_nil, or_false, not_or]
    constructor <;> exact fun hsame => absurd (congrArg Array.size hsame) (by simp)
  obtain ⟨named, hpart, hnamed⟩ :=
    BlobHeap.Builder.lists_empty.exists_add #[65, 46, 99, 115] 1 rfl (by decide) rfl (by decide)
  obtain ⟨located, hname, hlocated⟩ := hnamed.exists_add #[47, 1] 6
    (by rw [hnamed.data_eq]; rfl) (by decide) rfl (by decide)
  obtain ⟨hashed, hhash, hhashed⟩ := hlocated.exists_add hash.toArray 9
    (by rw [hlocated.data_eq]; rfl) hother (by simp) (by omega)
  obtain ⟨first, halgorithm, hfirst⟩ :=
    GuidHeap.Builder.lists_empty.exists_add sha256Algorithm 1 rfl (by decide) (by decide)
  obtain ⟨second, hlanguage, hsecond⟩ := hfirst.exists_add csharpLanguage 2
    (by rw [hfirst.data_eq]; decide) (by decide) (by decide)
  refine ⟨hashed, second, ?_, hhashed, hsecond⟩
  refine run_bind_eq_ok_iff.mpr ⟨_, { blobs := named },
    HeapBuilders.run_onBlobs_eq_ok_iff.mpr ⟨_, run_encode_path hpart, rfl⟩, ?_⟩
  refine run_bind_eq_ok_iff.mpr ⟨_, { blobs := located },
    HeapBuilders.run_onBlobs_eq_ok_iff.mpr ⟨_, hname, rfl⟩, ?_⟩
  refine run_bind_eq_ok_iff.mpr ⟨_, { blobs := located, guids := first },
    HeapBuilders.run_onGuids_eq_ok_iff.mpr ⟨_, halgorithm, rfl⟩, ?_⟩
  refine run_bind_eq_ok_iff.mpr ⟨_, { blobs := hashed, guids := first },
    HeapBuilders.run_onBlobs_eq_ok_iff.mpr ⟨_, hhash, rfl⟩, ?_⟩
  exact run_bind_eq_ok_iff.mpr ⟨_, { blobs := hashed, guids := second },
    HeapBuilders.run_onGuids_eq_ok_iff.mpr ⟨_, hlanguage, rfl⟩, rfl⟩

/-- The builder with nothing but the document. -/
def documentedBuilder (blobs : BlobHeap.Builder) (guids : GuidHeap.Builder) : DebugBuilder :=
  { DebugBuilder.empty with
    heaps := { blobs, guids }
    documents := #[⟨1, 6, 1, 9, 2⟩]
    documentRows := (∅ : Std.HashMap String UInt32).insert "A.cs" 1
    customInfo := #[(⟨.document, 1⟩, 3, 42)] }

/-- The document of the file is the first one, whatever its text. -/
theorem exists_addDocument_of_path {document : SourceDocument} (hpath : document.path = "A.cs")
    (hnew : document.embedded ∉ [#[65, 46, 99, 115], #[47, 1], document.hash.toArray])
    (hvalue : document.embedded.isEmpty = false) (hshort : document.embedded.size < 0x80) :
    ∃ blobs guids, (DebugBuilder.addDocument document).run .empty =
        .ok 1 (documentedBuilder blobs guids) ∧
      blobs.Lists [#[65, 46, 99, 115], #[47, 1], document.hash.toArray, document.embedded] ∧
      guids.Lists sampleGuids := by
  obtain ⟨path, hash, embedded⟩ := document
  subst hpath
  obtain ⟨hashed, listed, hrow, hhashed, hlisted⟩ := exists_documentRow_of_path hash embedded
  obtain ⟨blobs, hembedded, hblobs⟩ := hhashed.exists_add embedded 42
    (by rw [hhashed.data_eq]; simp [Bytes.size_ofNatBE]) hnew hvalue hshort
  obtain ⟨guids, hkind, hguids⟩ := hlisted.exists_add CustomKind.embeddedSource.guid 3
    (by rw [hlisted.data_eq]; decide) (by decide) (by decide)
  refine ⟨blobs, guids, ?_, hblobs, hguids⟩
  refine run_bind_eq_ok_iff.mpr ⟨_, _, run_get_eq_ok_iff.mpr ⟨rfl, rfl⟩, ?_⟩
  refine run_guard_eq_ok_iff.mpr ⟨by simp [DebugBuilder.empty], ?_⟩
  refine run_bind_eq_ok_iff.mpr ⟨_, _, run_get_eq_ok_iff.mpr ⟨rfl, rfl⟩, ?_⟩
  refine run_bind_eq_ok_iff.mpr ⟨1, _, DebugBuilder.run_orFail_eq_ok_iff.mpr ⟨rfl, rfl⟩, ?_⟩
  refine run_bind_eq_ok_iff.mpr
    ⟨_, _, DebugBuilder.run_onHeaps_eq_ok_iff.mpr ⟨_, hrow, rfl⟩, ?_⟩
  refine run_bind_eq_ok_iff.mpr ⟨(), _, run_modify_eq_ok_iff.mpr rfl, ?_⟩
  have hparent : CodedIndex.encode .hasCustomDebugInformation ⟨.document, 1⟩ = .ok 54 := rfl
  exact run_bind_eq_ok_iff.mpr
    ⟨(), _, DebugBuilder.run_addCustomInfo_new hparent hkind hembedded, rfl⟩

theorem exists_addDocument_sample : ∃ blobs guids,
    (DebugBuilder.addDocument sampleRecords.document).run .empty =
        .ok 1 (documentedBuilder blobs guids) ∧
      blobs.Lists (sampleBlobs.take 4) ∧ guids.Lists sampleGuids :=
  exists_addDocument_of_path rfl (by decide) rfl (by decide)

/-- The records of the run. -/
def sampleBuilder (blobs : BlobHeap.Builder) (guids : GuidHeap.Builder) : DebugBuilder where
  heaps := { blobs, guids }
  documents := #[⟨1, 6, 1, 9, 2⟩]
  documentRows := (∅ : Std.HashMap String UInt32).insert "A.cs" 1
  methods := (∅ : Std.HashMap UInt32 (UInt32 × UInt32)).insert 1 (1, 49)
  importScopes := #[⟨1, 0, 0⟩]
  localScopes := #[(⟨0, 1, 1, 0, 0, 0, 2⟩, [])]
  scopeKeys := (∅ : Std.HashSet (UInt32 × UInt32 × UInt32)).insert (1, 0, 2)
  customInfo := #[(⟨.document, 1⟩, 3, 42)]

/-- The second record of the method has the range of the first one, and its scope is left out. -/
theorem run_addMethodScopes_sample {builder : DebugBuilder} (hkeys : builder.scopeKeys = ∅) :
    (FileRecords.addMethodScopes #[1] sampleRecords.scopes.methods.toList).run builder =
      .ok () { builder with
        scopeKeys := builder.scopeKeys.insert (1, 0, 2)
        localScopes := builder.localScopes.push (⟨0, 1, 1, 0, 0, 0, 2⟩, []) } := by
  have hmethod : (Token.methodDef 1).isTable .methodDef = true := rfl
  refine run_bind_eq_ok_iff.mpr ⟨(), _, run_discard_eq_ok_iff.mpr
    ⟨true, DebugBuilder.run_addLocalScope_new hmethod (by simp [hkeys]) 1⟩, ?_⟩
  exact run_bind_eq_ok_iff.mpr ⟨(), _, run_discard_eq_ok_iff.mpr
    ⟨false, DebugBuilder.run_addLocalScope_known hmethod Std.HashSet.contains_insert_self 1⟩, rfl⟩

/-- The second record of the method is told as a duplicate. -/
theorem run_addMethods_sample {builder : DebugBuilder} {blobs : BlobHeap.Builder}
    (hmethods : builder.methods = ∅)
    (hpoints : (BlobHeap.Builder.add #[0, 0, 0, 0]).run builder.heaps.blobs = .ok 49 blobs) :
    (FileRecords.addMethods "A.cs" 1 sampleRecords.methods).run builder =
      .ok [FileRecords.duplicate "A.cs" ⟨.methodDef 1, none, {}⟩] { builder with
        heaps := { builder.heaps with blobs }, methods := builder.methods.insert 1 (1, 49) } := by
  have hmethod : (Token.methodDef 1).isTable .methodDef = true := rfl
  have hadd : (HeapBuilders.addBlob #[0, 0, 0, 0]).run builder.heaps =
      .ok 49 { builder.heaps with blobs } :=
    HeapBuilders.run_onBlobs_eq_ok_iff.mpr ⟨_, hpoints, rfl⟩
  refine run_bind_eq_ok_iff.mpr ⟨true, _, DebugBuilder.run_addMethod_new hmethod
    (by simp [DebugBuilder.hasMethod, hmethods]) 1 hadd, ?_⟩
  refine run_bind_eq_ok_iff.mpr ⟨(), _, rfl, ?_⟩
  have hknown : DebugBuilder.hasMethod { builder with
      heaps := { builder.heaps with blobs }, methods := builder.methods.insert 1 (1, 49) }
      (.methodDef 1) = true := Std.HashMap.contains_insert_self
  exact run_bind_eq_ok_iff.mpr
    ⟨false, _, DebugBuilder.run_addMethod_known hmethod hknown 1 none, rfl⟩

theorem exists_mergeAll_sample : ∃ blobs guids,
    (FileOutcome.mergeAll [{ path := "A.cs", records := some sampleRecords }]).run .empty =
        .ok [FileRecords.duplicate "A.cs" ⟨.methodDef 1, none, {}⟩] (sampleBuilder blobs guids) ∧
      blobs.Lists sampleBlobs ∧ guids.Lists sampleGuids := by
  obtain ⟨first, guids, hdocument, hfirst, hguids⟩ := exists_addDocument_sample
  obtain ⟨blobs, hpoints, hblobs⟩ := hfirst.exists_add #[0, 0, 0, 0] 49
    (by rw [hfirst.data_eq]; decide) (by decide) rfl (by decide)
  have hmerge : (FileRecords.merge "A.cs" sampleRecords).run .empty = .ok _ _ :=
    run_bind_eq_ok_iff.mpr ⟨1, _, hdocument, run_bind_eq_ok_iff.mpr ⟨#[1], _, rfl,
      run_bind_eq_ok_iff.mpr ⟨(), _, run_addMethodScopes_sample rfl,
        run_addMethods_sample rfl hpoints⟩⟩⟩
  exact ⟨blobs, guids, run_bind_eq_ok_iff.mpr ⟨_, _, hmerge, rfl⟩, hblobs, hguids⟩

/-- The tables of the run. -/
def sampleTables : DebugTables where
  documents := #[⟨1, 6, 1, 9, 2⟩]
  methods := #[⟨1, 1, 49⟩]
  localScopes := #[⟨1, 1, 1, 1, 1, 0, 2⟩]
  importScopes := #[⟨1, 0, 0⟩]
  customInfo := #[⟨1, ⟨.document, 1⟩, 3, 42⟩]
  strings := #[0, 0, 0, 0]
  blobs := #[0, 4, 65, 46, 99, 115, 2, 47, 1, 32] ++ sampleRecords.document.hash.toArray ++
    #[6, 0, 0, 0, 0, 3, 0, 4, 0, 0, 0, 0, 0, 0]
  guids := sha256Algorithm.toBytes ++ csharpLanguage.toBytes ++
    CustomKind.embeddedSource.guid.toBytes

theorem methodRows_sample (blobs : BlobHeap.Builder) (guids : GuidHeap.Builder) :
    (sampleBuilder blobs guids).methodRows 1 = sampleTables.methods := by
  apply Array.ext
  · simp [DebugBuilder.methodRows, sampleTables]
  · intro i hi _
    obtain rfl : i = 0 := by
      simp [DebugBuilder.methodRows] at hi
      omega
    simp [DebugBuilder.methodRows, sampleBuilder, sampleTables]

open DebugBuilder in
theorem finish_sample {blobs : BlobHeap.Builder} {guids : GuidHeap.Builder}
    (hblobs : blobs.Lists sampleBlobs) (hguids : guids.Lists sampleGuids) :
    (sampleBuilder blobs guids).finish 1 = .ok sampleTables := by
  have hexcess : (sampleBuilder blobs guids).excessMethod? 1 = none := by
    rw [excessMethod?, List.min?_eq_none_iff, List.filter_eq_nil_iff]
    intro row hrow
    rw [Std.HashMap.mem_keys, sampleBuilder, Std.HashMap.mem_insert] at hrow
    obtain rfl : 1 = row := by simpa using hrow
    decide
  have hscopes : numberScopes 1 ((sampleBuilder blobs guids).localScopes.toList.mergeSort
      fun a b => DebugTables.scopeLE a.1 b.1) #[] #[] = .ok (sampleTables.localScopes, #[]) := by
    rw [sampleBuilder, List.mergeSort_singleton]
    rfl
  have hmachines : numberMachines ((sampleBuilder blobs guids).machines.toList.mergeSort
      fun a b => a.1 ≤ b.1) #[] = .ok #[] := by
    rw [sampleBuilder, List.mergeSort_nil]
    rfl
  have hinfo : sortInfo (sampleBuilder blobs guids).customInfo.toList =
      .ok [(⟨.document, 1⟩, 3, 42)] := by
    refine bind_eq_ok_iff.mpr ⟨[(54, ⟨.document, 1⟩, 3, 42)], rfl, ?_⟩
    rw [List.mergeSort_singleton]
    rfl
  have hblobBytes : blobs.data.pad4 = sampleTables.blobs := by
    rw [hblobs.data_eq]
    decide
  have hguidBytes : guids.data = sampleTables.guids := by
    rw [hguids.data_eq]
    rfl
  rw [finish_eq_ok hexcess hscopes hmachines hinfo rfl, methodRows_sample,
    StringHeap.Builder.toBytes, BlobHeap.Builder.toBytes, GuidHeap.Builder.toBytes]
  simp only [sampleBuilder, hblobBytes, hguidBytes]
  rfl

theorem size_encode_sampleTables :
    (sampleTables.encode .zero ⟨0⟩ sampleModule.rowCounts).toOption.map Array.size = some 356 :=
  DebugTables.size_encode_of_form 84 356 (by decide +kernel) (by decide) (by decide) _ _

/-- The tables of the run are written for any module with one method from which the records come. -/
theorem exists_generate_of_sampleRecords {size : Nat}
    (houtcomes : outcomesOf module decompiler sampleOptions Deflate.deflate =
      [{ path := "A.cs", records := some sampleRecords }])
    (hcount : module.methodCount = 1)
    (hsize : (sampleTables.encode .zero module.entryPoint module.rowCounts).toOption.map
      Array.size = some size) :
    ∃ generated, generate module decompiler sampleOptions = .ok generated ∧
      generated.data.size = size := by
  obtain ⟨blobs, guids, hmerge, hblobs, hguids⟩ := exists_mergeAll_sample
  obtain ⟨data, hencode, hsize⟩ := exists_ok_of_toOption_map hsize
  have hassemble : ∃ report, assemble module (some (.zero, .explicit))
      [{ path := "A.cs", records := some sampleRecords }] = .ok ⟨data, report⟩ := by
    unfold assemble
    rw [hmerge, hcount]
    exact ⟨_, bind_eq_ok_iff.mpr ⟨sampleTables, finish_sample hblobs hguids,
      bind_eq_ok_iff.mpr ⟨_, bind_eq_ok_iff.mpr ⟨data, hencode, rfl⟩, rfl⟩⟩⟩
  obtain ⟨report, hgenerated⟩ := hassemble
  refine ⟨⟨data, report⟩, ?_, hsize⟩
  rw [← houtcomes] at hgenerated
  unfold generate generateWatched
  simp only [contentIdOf, GeneratorOptions.createPool, mapM_process]
  exact hgenerated

theorem exists_generate_sample : ∃ generated,
    generate sampleModule sampleDecompiler sampleOptions = .ok generated ∧
      generated.data.size = 356 :=
  exists_generate_of_sampleRecords outcomesOf_sample rfl size_encode_sampleTables

/-- What a container has in common with the module and the run that it was generated for. -/
structure Agrees (container : Container) (module : Module) (generated : GeneratedContainer) :
    Prop where
  id : container.id = generated.report.contentId
  entryPoint : container.entryPoint = module.entryPoint
  typeSystemRows : ∀ slot : Fin 64, slot.val < 0x30 →
    container.typeSystemRows.get slot = module.rowCounts.get slot
  /-- Each row of methods of the module has its own method, in the order of the rows. -/
  methods : container.methods.map (·.method) =
    Array.ofFn fun i : Fin module.methodCount.toNat => .methodDef (i.val + 1).toUInt32
  methodRows : container.methods.size = generated.report.methodRows
  methodsWithPoints :
    container.methods.countP (·.points.isSome) = generated.report.methodsWithPoints
  documents : container.documents.size = generated.report.documents
  localScopes : container.localScopes.size = generated.report.localScopes
  importScopes : container.importScopes.size = generated.report.importScopes
  machines : container.machines.size = generated.report.stateMachines
  info : container.info.size = generated.report.customInfo
  size : generated.report.size = generated.data.size

/-- A container that was generated for a module is read back, as long as a word can measure it, and
it agrees with the module and with the report. -/
theorem generate_readable (hcompress : Deflate.IsCompressor compress)
    (hgenerated : generate module decompiler options compress newPool = .ok generated)
    (hsize : generated.data.size < 0x100000000) :
    ∃ container, Container.ofBytes generated.data = .ok container ∧
      Agrees container module generated := by
  obtain ⟨builder, tables, diagnostics, hgenerates⟩ := exists_generates hgenerated
  have hclosed := isClosed_of_generates hcompress hgenerates
  have hfinishes := DebugBuilder.finishes_of_finish hgenerates.finish_eq
  obtain ⟨_, _, hencode⟩ := hgenerates.encode_eq
  obtain ⟨container, hread, hid, hentryPoint, hrows, hshows⟩ := Container.exists_ofBytes
    (encode_of_encodeWithId hencode) hsize (hclosed.isResolved hfinishes)
  have hcount : container.methods.size = module.methodCount.toNat := by
    rw [hshows.size_methods, hfinishes.methods, DebugBuilder.methodRows, Array.size_ofFn]
  refine ⟨container, hread, {
    id := hid
    entryPoint := hentryPoint
    typeSystemRows := ?_
    methods := ?_
    methodRows := by rw [hshows.size_methods, hgenerates.methodRows]
    methodsWithPoints := by rw [hshows.countP_points, hgenerates.methodsWithPoints]
    documents := by rw [hshows.documents, hgenerates.documents]
    localScopes := by rw [hshows.localScopes, hgenerates.localScopes]
    importScopes := by rw [hshows.importScopes, hgenerates.importScopes]
    machines := by rw [hshows.machines, hgenerates.stateMachines]
    info := by rw [hshows.info, hgenerates.customInfo]
    size := hgenerates.size }⟩
  · intro slot hslot
    rw [hrows, TablesStream.get_typeSystemCounts, if_pos hslot]
  · apply Array.ext
    · rw [Array.size_map, Array.size_ofFn, hcount]
    · intro i hi _
      rw [Array.size_map] at hi
      rw [Array.getElem_map, Array.getElem_ofFn]
      exact hshows.method_eq (Array.getElem?_eq_getElem hi)

theorem generate_readable_sample : ∃ generated container,
    Deflate.IsCompressor Deflate.deflate ∧
      generate sampleModule sampleDecompiler sampleOptions = .ok generated ∧
      generated.data.size < 0x100000000 ∧ Container.ofBytes generated.data = .ok container ∧
      Agrees container sampleModule generated := by
  obtain ⟨generated, hgenerated, hsize⟩ := exists_generate_sample
  have hfits : generated.data.size < 0x100000000 := by omega
  obtain ⟨container, hread, hagrees⟩ :=
    generate_readable Deflate.isCompressor_deflate hgenerated hfits
  exact ⟨generated, container, Deflate.isCompressor_deflate, hgenerated, hfits, hread, hagrees⟩

end Generation

end PortablePdb
