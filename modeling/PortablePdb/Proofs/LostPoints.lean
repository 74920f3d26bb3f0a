import PortablePdb.Proofs.FirstSubmission
import PortablePdb.Proofs.Generated
import PortablePdb.Proofs.Walk

namespace PortablePdb

/-- A diagnostic names a file, and one of the methods of a function. -/
structure Diagnostic.Names (diagnostic : Diagnostic) (path : String)
    (function : DecompiledFunction) : Prop where
  file : diagnostic.file = some path
  token : diagnostic.token = some function.method ∨ diagnostic.token = some function.bodyMethod

/-- Only an empty list of points has no blob. -/
theorem SequencePoints.eq_some_of_encode {localSignature : UInt32} {points : List SequencePoint}
    {result : Option Bytes} (hne : points ≠ [])
    (hencode : encode localSignature points = .ok result) : ∃ blob, result = some blob := by
  unfold encode at hencode
  rw [if_neg (by simpa using hne)] at hencode
  obtain ⟨head, _, hencode⟩ := bind_eq_ok_iff.mp hencode
  obtain ⟨rest, _, hencode⟩ := bind_eq_ok_iff.mp hencode
  exact ⟨_, (pure_eq_ok_iff.mp hencode).symm⟩

namespace FileScopes

variable {file : DecompiledFile} {module : Module} {scopes : FileScopes} {slot : Nat}

/-- The functions of scopes are functions that a file lists. -/
def AreListed (file : DecompiledFile) (scopes : FileScopes) : Prop :=
  ∀ id ∈ scopes.functions, ∃ function, file.function? id = some function

theorem functions_foldl_addMethod (methods : List Token) (scopes : FileScopes) :
    (methods.foldl (addMethod module slot) scopes).functions = scopes.functions := by
  induction methods generalizing scopes with
  | nil => rfl
  | cons method methods ih =>
    rw [List.foldl_cons, ih, addMethod]
    split <;> rfl

theorem AreListed.addFunction (hscopes : scopes.AreListed file) (function : Option UInt32) :
    (scopes.addFunction file module slot function).AreListed file := by
  unfold FileScopes.addFunction
  split
  · next entry hentry =>
    obtain ⟨id, _, hfound⟩ := Option.bind_eq_some_iff.mp hentry
    have hid : entry.id = id := by simpa using List.find?_some hfound
    split
    · intro other hother
      rw [functions_foldl_addMethod] at hother
      rcases Array.mem_push.mp hother with hold | rfl
      · exact hscopes other hold
      · exact ⟨entry, hid ▸ hfound⟩
    · exact hscopes
  · exact hscopes

theorem isKept_areListed (file : DecompiledFile) (module : Module) :
    IsKept file module (AreListed file) where
  openNamespace _ hscopes := hscopes
  addImport _ _ hscopes := hscopes
  addFunction _ function hscopes := hscopes.addFunction function

/-- Only functions that the file lists have scopes. -/
theorem areListed_of_ofFile (hfile : ofFile file module = .ok scopes) : scopes.AreListed file :=
  (isKept_areListed file module).of_ofFile nofun hfile

end FileScopes

namespace FileRecords

variable {path : String} {module : Module} {shift : UInt32} {file : DecompiledFile}
  {function : DecompiledFunction} {points : List SequencePoint}

/-- Points of a method are encoded with the local signature of its code, or a diagnostic about the
method tells that they are not. -/
theorem pointsOf_encodes_or_reports (hne : points ≠ []) (method : Token)
    (code : Option MethodCode) :
    (∃ body blob, code = some body ∧
      SequencePoints.encode body.localSignature (points.map (·.prepare shift)) = .ok (some blob) ∧
      (pointsOf path shift method code points).1 = some blob) ∨
    ∃ diagnostic ∈ (pointsOf path shift method code points).2,
      diagnostic.file = some path ∧ diagnostic.token = some method := by
  have hpoints : points.isEmpty = false := by simpa using hne
  cases code with
  | none =>
    right
    rw [pointsOf, hpoints]
    exact ⟨_, List.mem_singleton_self _, rfl, rfl⟩
  | some body =>
    cases hencode : SequencePoints.encode body.localSignature (points.map (·.prepare shift)) with
    | ok blob =>
      left
      obtain ⟨blob, rfl⟩ := SequencePoints.eq_some_of_encode (by simpa using hne) hencode
      refine ⟨body, blob, rfl, hencode, ?_⟩
      simp only [pointsOf, hpoints, hencode]
      rfl
    | error error =>
      right
      simp only [pointsOf, hpoints, hencode]
      exact ⟨_, List.mem_append_right _ (List.mem_singleton_self _), rfl, rfl⟩

/-- The points of a function are in its records, or a diagnostic names the function. -/
theorem ofFunction_encodes_or_reports (path : String) (module : Module) (shift : UInt32)
    (hpoints : (file.points.get? function.id).getD [] = points) (hne : points ≠ []) :
    (∃ entry body blob, (ofFunction path module shift file function).1 = some entry ∧
      (module.method? function.bodyMethod).bind (·.code) = some body ∧
      SequencePoints.encode body.localSignature (points.map (·.prepare shift)) = .ok (some blob) ∧
      entry.points = some blob) ∨
    ∃ diagnostic ∈ (ofFunction path module shift file function).2,
      diagnostic.Names path function := by
  unfold ofFunction
  simp only [hpoints]
  cases hbody : module.method? function.bodyMethod with
  | none => exact .inr ⟨_, List.mem_singleton_self _, rfl, .inr rfl⟩
  | some body =>
    by_cases hkickoff : (module.method? function.method).isNone = true
    · simp only [if_pos hkickoff]
      exact .inr ⟨_, List.mem_singleton_self _, rfl, .inl rfl⟩
    · simp only [if_neg hkickoff]
      rcases pointsOf_encodes_or_reports hne function.bodyMethod body.code with
        ⟨code, blob, hcode, hencode, hblob⟩ | ⟨diagnostic, hmem, hfile, htoken⟩
      · exact .inl ⟨_, code, blob, rfl, hcode, hencode, hblob⟩
      · exact .inr ⟨diagnostic, List.mem_append_left _ hmem, hfile, .inr htoken⟩

theorem sourceOf_fst (banner : Option String) (file : DecompiledFile) :
    (sourceOf banner file).1 = banner.elim 0 Banner.lineCount := by
  cases banner <;> rfl

end FileRecords

/-- Nothing that is reported about a file gets lost when the files are merged. -/
theorem FileOutcome.mem_of_mergeAll {outcomes : List FileOutcome} {builder after : DebugBuilder}
    {diagnostics : List Diagnostic} {outcome : FileOutcome} {diagnostic : Diagnostic}
    (hrun : (mergeAll outcomes).run builder = .ok diagnostics after)
    (houtcome : outcome ∈ outcomes) (hmem : diagnostic ∈ outcome.diagnostics) :
    diagnostic ∈ diagnostics := by
  induction outcomes generalizing builder diagnostics with
  | nil => cases houtcome
  | cons first outcomes ih =>
    obtain ⟨merged, middle, rest, _, hrest, rfl⟩ := run_mergeAll_cons hrun
    rcases List.mem_cons.mp houtcome with rfl | hlater
    · exact List.mem_append_left _ (List.mem_append_left _ hmem)
    · exact List.mem_append_right _ (ih hrest hlater)

/-- A submission is the first one for its method, or it is reported. -/
theorem Submission.isFirst_or_reported {submissions : List Submission} {submission : Submission}
    (hown : ∀ other ∈ submissions, other.entry.method.isTable .methodDef = true)
    (hmem : submission ∈ submissions) :
    submissions.find? (isFor submission.entry.method.row) = some submission ∨
      submission.duplicate ∈ duplicates [] submissions := by
  have hfor : submission ∈ submissions.filter (isFor submission.entry.method.row) :=
    List.mem_filter.mpr ⟨hmem, by simp [isFor]⟩
  have hreported := filter_duplicates (hown submission hmem) [] hown
  rw [← List.head?_filter]
  cases hall : submissions.filter (isFor submission.entry.method.row) with
  | nil => simp [hall] at hfor
  | cons first rest =>
    rw [hall] at hfor hreported
    rcases List.mem_cons.mp hfor with rfl | hrest
    · exact .inl rfl
    · right
      have hduplicate : submission.duplicate ∈ rest.map duplicate := List.mem_map_of_mem hrest
      rw [List.any_nil, if_neg Bool.false_ne_true, List.tail_cons] at hreported
      rw [← hreported] at hduplicate
      exact (List.mem_filter.mp hduplicate).1

namespace DebugTables

/-- The row of a method names the document with a path, and its blob holds points. -/
def HoldsPoints (tables : DebugTables) (method : Token) (path : String)
    (points : SequencePoints) : Prop :=
  ∃ row documentRow document,
    tables.methods[method.row.toNat - 1]? = some row ∧
    Container.methodOf tables.heaps row = .ok ⟨method, row.document, some points⟩ ∧
    row.document ≠ 0 ∧ tables.documents[row.document.toNat - 1]? = some documentRow ∧
    Container.documentOf tables.heaps documentRow = .ok document ∧
    document.row = row.document ∧ document.name = path

/-- What was submitted first for a method is found in its row. -/
theorem Has.holdsPoints {tables : DebugTables} {submission : Submission} {localSignature : UInt32}
    {points : List SequencePoint} {blob : Bytes}
    (hhas : tables.Has submission.entry.method.row (some submission))
    (hmethod : submission.entry.method.isTable .methodDef = true)
    (hempty : tables.heaps.blobs.data.HasAt 0 #[0])
    (hblob : submission.entry.points = some blob)
    (hencode : SequencePoints.encode localSignature points = .ok (some blob)) :
    tables.HoldsPoints submission.entry.method submission.path
      { localSignature, points := points.map (·.stored) } := by
  obtain ⟨number, index, documentRow, document, hrow, hat, hnumber, hdocumentRow, hdocument, hrid,
    hname⟩ := hhas.points submission blob rfl hblob
  refine ⟨_, documentRow, document, hrow, ?_, hnumber, hdocumentRow, hdocument, hrid, hname⟩
  have hindex : index ≠ 0 := by
    rintro rfl
    have hnone := (BlobHeap.hasBlob_empty hempty).blobAt_eq
    exact SequencePoints.ne_empty_of_encode hencode (Except.ok.inj (hat.symm.trans hnone))
  rw [Container.methodOf, if_neg hindex, beq_eq_false_iff_ne.mpr hnumber,
    Token.methodDef_row hmethod]
  refine bind_eq_ok_iff.mpr ⟨blob, hat, ?_⟩
  rw [SequencePoints.decode_of_encode hencode]
  rfl

end DebugTables

namespace Generation

variable {module : Module} {decompiler : Decompiler} {options : GeneratorOptions}
  {compress : Bytes → Bytes} {newPool : PoolCreation} {generated : GeneratedContainer}
  {builder : DebugBuilder} {tables : DebugTables} {diagnostics : List Diagnostic}

/-- Points that were submitted are in the tables of a run, unless the submission is reported. -/
theorem Generates.holds_or_reports
    (hgenerates : Generates module decompiler options compress generated builder tables diagnostics)
    {submission : Submission} {localSignature : UInt32} {points : List SequencePoint}
    {blob : Bytes}
    (hmem : submission ∈ allSubmissionsOf module decompiler options compress)
    (hblob : submission.entry.points = some blob)
    (hencode : SequencePoints.encode localSignature points = .ok (some blob)) :
    tables.HoldsPoints submission.entry.method submission.path
        { localSignature, points := points.map (·.stored) } ∨
      submission.duplicate ∈ diagnostics := by
  have hmethods : ∀ other ∈ allSubmissionsOf module decompiler options compress,
      other.entry.method.isTable .methodDef = true := by
    intro other hother
    obtain ⟨function, haccepts⟩ := exists_accepts hother
    exact haccepts.isOwn.method
  have hmethod := hmethods submission hmem
  have hkeeps := hgenerates.keeps
  rcases Submission.isFirst_or_reported hmethods hmem with hfirst | hreported
  · left
    obtain ⟨entry, hentry, _⟩ := hkeeps.recorded _ _ hfirst
    have hcontains : builder.methods.contains submission.entry.method.row = true := by
      rw [← Std.HashMap.isSome_getElem?_eq_contains, hentry]
      rfl
    have hle := DebugBuilder.excessMethod?_eq_none hgenerates.finishes.noExcess hcontains
    have hhas := hkeeps.has hgenerates.finishes (Token.row_ne_zero hmethod) hle
    rw [hfirst] at hhas
    refine hhas.holdsPoints hmethod ?_ hblob hencode
    rw [(hgenerates.finishes.heaps_eq hkeeps.heaps).1]
    exact hkeeps.heaps.extends_padded.sound.blobs.empty_at
  · right
    obtain ⟨_, hduplicates⟩ := DebugBuilder.keeps_empty.mergeAll hgenerates.merge_eq
      fun _ => isOwn_of_mem_outcomesOf
    rw [← allSubmissionsOf] at hduplicates
    rw [← hduplicates] at hreported
    exact (List.mem_filter.mp hreported).1

/-- The points of each function in the scopes of a source file are in the container, with the
document of the file and moved down by the lines of the banner, or a diagnostic names the file and a
method of the function. -/
theorem generate_accounts_for_points
    (hgenerated : generate module decompiler options compress newPool = .ok generated) :
    ∃ tables contentId, contentIdOf module options = .ok contentId ∧
      encodeWithId module tables contentId =
        .ok (generated.data, generated.report.contentId, generated.report.contentIdSource) ∧
      ∀ source ∈ SourceFile.ofModule module decompiler options.nestedDirectories,
      ∀ file records, decompiler.decompile source.types = .ok file →
      (FileOutcome.ofFile module decompiler options.banner source compress).records =
        some records →
      ∀ id ∈ records.scopes.functions, ∀ points, file.points.get? id = some points →
      points ≠ [] →
      ∃ function, file.function? id = some function ∧
        ((∃ code, (module.method? function.bodyMethod).bind (·.code) = some code ∧
          tables.HoldsPoints function.bodyMethod source.path
            { localSignature := code.localSignature
              points := points.map fun point =>
                (point.prepare (options.banner.elim 0 Banner.lineCount)).stored }) ∨
        ∃ diagnostic ∈ generated.report.diagnostics,
          diagnostic.Names source.path function) := by
  obtain ⟨builder, tables, diagnostics, hgenerates⟩ := exists_generates hgenerated
  obtain ⟨contentId, hcontentId, hencode⟩ := hgenerates.encode_eq
  obtain ⟨minted, hreport, _⟩ := hgenerates.diagnostics
  refine ⟨tables, contentId, hcontentId, hencode, ?_⟩
  intro source hsource file records hfile hrecords id hid points hpoints hne
  have houtcome : FileOutcome.ofFile module decompiler options.banner source compress ∈
      outcomesOf module decompiler options compress := List.mem_map_of_mem hsource
  have hdecompiled : FileOutcome.ofFile module decompiler options.banner source compress =
      FileRecords.ofDecompiled source.path module options.banner file compress := by
    rw [FileOutcome.ofFile, hfile]
  rw [hdecompiled] at hrecords
  obtain ⟨_, hscopes, hmethods, hreports⟩ := FileRecords.areOf_ofDecompiled hrecords
  obtain ⟨function, hfunction⟩ := FileScopes.areListed_of_ofFile hscopes id hid
  have hown : function.id = id := by simpa using List.find?_some hfunction
  refine ⟨function, hfunction, ?_⟩
  have hpart : FileRecords.ofFunction source.path module
      (FileRecords.sourceOf options.banner file).1 file function ∈
      FileRecords.ofFunctions source.path module (FileRecords.sourceOf options.banner file).1 file
        records.scopes.functions.toList :=
    List.mem_map_of_mem (List.mem_filterMap.mpr ⟨id, Array.mem_toList_iff.mpr hid, hfunction⟩)
  rcases FileRecords.ofFunction_encodes_or_reports source.path module
      (FileRecords.sourceOf options.banner file).1 (by rw [hown, hpoints]; rfl) hne with
    ⟨entry, code, blob, hentry, hcode, hblob, hstored⟩ | ⟨diagnostic, hmem, hnames⟩
  · have haccepts := FileRecords.accepts_of_ofFunction hentry
    have hsubmitted : ⟨source.path, entry⟩ ∈
        allSubmissionsOf module decompiler options compress := by
      refine List.mem_flatMap.mpr ⟨_, houtcome, List.mem_map.mpr ⟨entry, ?_, ?_⟩⟩
      · rw [hdecompiled, hrecords, Option.elim_some, hmethods]
        exact List.mem_filterMap.mpr ⟨_, hpart, hentry⟩
      · rw [FileRecords.path_ofFile]
    rcases hgenerates.holds_or_reports hsubmitted hstored hblob with hholds | hreported
    · left
      rw [haccepts.method, FileRecords.sourceOf_fst, List.map_map] at hholds
      exact ⟨code, hcode, hholds⟩
    · right
      refine ⟨_, hreport ▸ List.mem_append_right _ hreported, rfl, .inr ?_⟩
      rw [← haccepts.method]
      rfl
  · right
    refine ⟨diagnostic, hreport ▸ List.mem_append_right _ ?_, hnames⟩
    apply FileOutcome.mem_of_mergeAll hgenerates.merge_eq houtcome
    rw [hdecompiled, hreports]
    exact List.mem_flatMap.mpr ⟨_, hpart, hmem⟩

theorem generate_accounts_for_points_sample : ∃ generated tables contentId file function,
    generate sampleModule sampleDecompiler sampleOptions = .ok generated ∧
      encodeWithId sampleModule tables contentId =
        .ok (generated.data, generated.report.contentId, generated.report.contentIdSource) ∧
      (⟨"A.cs", [.typeDef 1]⟩ : SourceFile) ∈
        SourceFile.ofModule sampleModule sampleDecompiler sampleOptions.nestedDirectories ∧
      sampleDecompiler.decompile [.typeDef 1] = .ok file ∧
      (FileOutcome.ofFile sampleModule sampleDecompiler none ⟨"A.cs", [.typeDef 1]⟩).records =
        some sampleRecords ∧
      1 ∈ sampleRecords.scopes.functions ∧ file.points.get? 1 = some [.hidden 0] ∧
      [SequencePoint.hidden 0] ≠ [] ∧ file.function? 1 = some function ∧
      (tables.HoldsPoints function.bodyMethod "A.cs" { points := [.hidden 0] } ∨
        ∃ diagnostic ∈ generated.report.diagnostics, diagnostic.Names "A.cs" function) := by
  obtain ⟨generated, hgenerated, _⟩ := exists_generate_sample
  have hsource : (⟨"A.cs", [.typeDef 1]⟩ : SourceFile) ∈
      SourceFile.ofModule sampleModule sampleDecompiler sampleOptions.nestedDirectories := by
    decide
  have hrecords : (FileOutcome.ofFile sampleModule sampleDecompiler none
      ⟨"A.cs", [.typeDef 1]⟩).records = some sampleRecords := by
    decide +kernel
  have hid : 1 ∈ sampleRecords.scopes.functions := by simp [sampleRecords]
  obtain ⟨tables, contentId, _, hencode, haccounts⟩ := generate_accounts_for_points hgenerated
  obtain ⟨function, hfunction, hpoints⟩ := haccounts _ hsource _ sampleRecords rfl hrecords 1
    hid [.hidden 0] (by decide) (by decide)
  refine ⟨generated, tables, contentId, _, function, hgenerated, hencode, hsource, rfl, hrecords,
    hid, by decide, by decide, hfunction, ?_⟩
  cases hfunction
  rcases hpoints with ⟨code, hcode, hholds⟩ | hreported
  · cases hcode
    exact .inl hholds
  · exact .inr hreported

end Generation

end PortablePdb
