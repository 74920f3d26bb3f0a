import PortablePdb.Proofs.Finishing
import PortablePdb.Proofs.Walk

namespace PortablePdb

open DebugBuilder

variable {builder : DebugBuilder} {count : UInt32}

/-- The records of a function are about some number of methods. -/
structure MethodRecords.IsWithin (entry : MethodRecords) (count : UInt32) : Prop where
  method : entry.method.IsMethodWithin count
  machine : ∀ machine, entry.records.machine = some machine →
    machine.moveNext.IsMethodWithin count ∧ machine.kickoff.IsMethodWithin count
  stepping : ∀ method blob, entry.records.stepping = some (method, blob) →
    method.IsMethodWithin count

/-- The records of a file are about some number of methods. -/
structure FileRecords.IsWithin (file : FileRecords) (count : UInt32) : Prop where
  scopes : ∀ scope ∈ file.scopes.methods, scope.method.IsMethodWithin count
  methods : ∀ entry ∈ file.methods, entry.IsWithin count

namespace FileRecords

theorem hasImports_getD (hrefers : builder.Refers count) {rows : Array UInt32}
    (hrows : ∀ row ∈ rows, builder.HasImports row) (slot : Nat) :
    builder.HasImports (rows.getD slot globalScope) := by
  unfold Array.getD
  split
  · exact hrows _ (Array.getElem_mem _)
  · exact hrefers.hasImports_globalScope

/-- The scopes of imports of a file are added, each within one that is there. -/
theorem yields_addNamespaces (hrefers : builder.Refers count) (scopes : List NamespaceScope)
    {rows : Array UInt32} (hrows : ∀ row ∈ rows, builder.HasImports row) :
    Yields (fun result after => after.Follows builder count ∧
      ∀ row ∈ result, after.HasImports row) Exceeds (addNamespaces scopes rows) builder := by
  induction scopes generalizing builder rows with
  | nil => exact .pure ⟨hrefers.follows_self, hrows⟩
  | cons scope scopes ih =>
    have hrest {row : UInt32} {next : DebugBuilder} (hnext : next.Follows builder count)
        (hrow : next.HasImports row) :
        Yields (fun result after => after.Follows builder count ∧
          ∀ row ∈ result, after.HasImports row) Exceeds (addNamespaces scopes (rows.push row))
          next := by
      have hall : ∀ other ∈ rows.push row, next.HasImports other := by
        intro other hother
        rcases Array.mem_push.mp hother with hold | rfl
        · exact hnext.hasImports (hrows other hold)
        · exact hrow
      exact (ih hnext.refers hall).imp fun _ _ _ ⟨hafter, hresult⟩ =>
        ⟨hafter.trans hnext, hresult⟩
    have hadd {parent : UInt32} (hparent : builder.HasImports parent) :
        Yields (fun result after => after.Follows builder count ∧
          ∀ row ∈ result, after.HasImports row) Exceeds
          (addImportScope parent scope.imports >>= fun row => addNamespaces scopes (rows.push row))
          builder :=
      (hrefers.addImportScope hparent scope.imports).bind fun _ _ ⟨hnext, hrow⟩ => hrest hnext hrow
    unfold addNamespaces
    cases hparent : scope.parent with
    | none =>
      simp only
      split
      · exact hrest hrefers.follows_self hrefers.hasImports_globalScope
      · exact hadd hrefers.hasImports_globalScope
    | some parent => exact hadd (hasImports_getD hrefers hrows parent)

/-- The scopes of methods of the module are added. -/
theorem yields_addMethodScopes (hrefers : builder.Refers count) {rows : Array UInt32}
    (hrows : ∀ row ∈ rows, builder.HasImports row) {scopes : List MethodScope}
    (hscopes : ∀ scope ∈ scopes, scope.method.IsMethodWithin count) :
    Yields (fun _ after => after.Follows builder count) Exceeds (addMethodScopes rows scopes)
      builder := by
  induction scopes generalizing builder with
  | nil => exact .pure hrefers.follows_self
  | cons scope scopes ih =>
    have himport := hasImports_getD hrefers hrows scope.namespaceScope
    have hadd : Yields (fun _ after => after.Follows builder count) Exceeds
        (discard <| addLocalScope scope.method (rows.getD scope.namespaceScope globalScope) 0
          scope.length []) builder :=
      .discard (hrefers.addLocalScope (hscopes scope List.mem_cons_self) himport 0 scope.length)
    refine hadd.bind fun _ next hnext => ?_
    refine (ih hnext.refers (fun row hrow => hnext.hasImports (hrows row hrow))
      fun other hother => hscopes other (List.mem_cons_of_mem _ hother)).imp ?_
    exact fun _ _ _ hafter => hafter.trans hnext

/-- What is known about the state machine and the stepping of a function is added. -/
theorem yields_addMachine (hrefers : builder.Refers count) {entry : MethodRecords}
    (hentry : entry.IsWithin count) :
    Yields (fun _ after => after.Follows builder count) Exceeds (addMachine entry.records)
      builder := by
  have hinfo {builder : DebugBuilder} (hrefers : builder.Refers count) {method : Token}
      (hmethod : method.IsMethodWithin count) {kind : CustomKind} (hkind : kind ∈ CustomKind.known)
      (value : Bytes) :
      Yields (fun _ after => after.Follows builder count) Exceeds
        (addCustomInfo ⟨.methodDef, method.row⟩ kind value) builder :=
    hrefers.addCustomInfo (.inr ⟨rfl, hmethod.2⟩) hkind value
  have hstepping {builder : DebugBuilder} (hrefers : builder.Refers count) :
      Yields (fun _ after => after.Follows builder count) Exceeds
        (addMachine { machine := none, stepping := entry.records.stepping }) builder := by
    cases hsome : entry.records.stepping with
    | none => exact hrefers.follows_self
    | some stepping =>
      exact hinfo hrefers (hentry.stepping _ _ hsome) (by simp [CustomKind.known]) stepping.2
  cases hsome : entry.records.machine with
  | none =>
    have hrecords : entry.records = { machine := none, stepping := entry.records.stepping } := by
      rw [← hsome]
    rw [hrecords]
    exact hstepping hrefers
  | some machine =>
    obtain ⟨hmoveNext, hkickoff⟩ := hentry.machine machine hsome
    unfold addMachine
    rw [hsome]
    refine (hrefers.addStateMachine hmoveNext hkickoff).bind fun _ first hfirst => ?_
    refine (hinfo hfirst.refers hmoveNext (by simp [CustomKind.known]) machine.hoisted).bind
      fun _ second hsecond => ?_
    exact (hstepping hsecond.refers).imp fun _ _ _ hafter =>
      (hafter.trans hsecond).trans hfirst

/-- The functions of a file are submitted. -/
theorem yields_addMethods (hrefers : builder.Refers count) (path : String) {document : UInt32}
    (hdocument : document.toNat ≤ builder.documents.size) {entries : List MethodRecords}
    (hentries : ∀ entry ∈ entries, entry.IsWithin count) :
    Yields (fun _ after => after.Follows builder count) Exceeds (addMethods path document entries)
      builder := by
  induction entries generalizing builder with
  | nil => exact .pure hrefers.follows_self
  | cons entry entries ih =>
    have hentry := hentries entry List.mem_cons_self
    have hrest {next : DebugBuilder} (hnext : next.Follows builder count) :
        Yields (fun _ after => after.Follows builder count) Exceeds
          (addMethods path document entries) next :=
      (ih hnext.refers (hnext.documents ▸ hdocument)
        fun other hother => hentries other (List.mem_cons_of_mem _ hother)).imp
          fun _ _ _ hafter => hafter.trans hnext
    refine (hrefers.addMethod hentry.method hdocument entry.points).bind
      fun isFirst next hnext => ?_
    cases isFirst with
    | true =>
      refine (yields_addMachine hnext.refers hentry).bind fun _ middle hmiddle => ?_
      exact hrest (hmiddle.trans hnext)
    | false => exact (hrest hnext).bind fun _ _ hafter => .pure hafter

/-- A file with a new path is merged. -/
theorem yields_merge (hrefers : builder.Refers count) (path : String) {file : FileRecords}
    (hfile : file.IsWithin count)
    (hnew : builder.documentRows.contains file.document.path = false) :
    Yields (fun _ after => after.Refers count ∧ ∃ rid,
      after.documentRows = builder.documentRows.insert file.document.path rid) Exceeds
      (merge path file) builder := by
  refine (hrefers.addDocument hnew).bind fun document first ⟨hfirst, hdocument, hrows⟩ => ?_
  have hnone : ∀ row ∈ (#[] : Array UInt32), first.HasImports row := by simp
  refine (yields_addNamespaces hfirst file.scopes.namespaces.toList hnone).bind
    fun rows second ⟨hsecond, himports⟩ => ?_
  refine (yields_addMethodScopes hsecond.refers himports fun scope hscope =>
    hfile.scopes scope (Array.mem_toList_iff.mp hscope)).bind fun _ third hthird => ?_
  have hfollows := hthird.trans hsecond
  refine (yields_addMethods hthird.refers path (hfollows.documents ▸ hdocument)
    hfile.methods).imp fun _ after _ hafter => ?_
  exact ⟨hafter.refers, document, (hafter.trans hfollows).documentRows.trans hrows⟩

end FileRecords

namespace FileOutcome

/-- Files with different paths are merged, whatever came of them. -/
theorem yields_mergeAll (hrefers : builder.Refers count) {outcomes : List FileOutcome}
    (houtcomes : ∀ outcome ∈ outcomes, ∀ file, outcome.records = some file →
      file.IsWithin count ∧ file.document.path = outcome.path)
    (hpaths : (outcomes.map (·.path)).Nodup)
    (hnew : ∀ outcome ∈ outcomes, builder.documentRows.contains outcome.path = false) :
    Yields (fun _ after => after.Refers count) Exceeds (mergeAll outcomes) builder := by
  induction outcomes generalizing builder with
  | nil => exact .pure hrefers
  | cons outcome outcomes ih =>
    obtain ⟨hpath, hpaths⟩ := List.nodup_cons.mp hpaths
    have hlater := fun other hother => houtcomes other (List.mem_cons_of_mem outcome hother)
    have hfree := fun other hother => hnew other (List.mem_cons_of_mem outcome hother)
    unfold mergeAll
    cases hrecords : outcome.records with
    | none => exact (ih hrefers hlater hpaths hfree).bind fun _ _ hafter => .pure hafter
    | some file =>
      obtain ⟨hwithin, hsame⟩ := houtcomes outcome List.mem_cons_self file hrecords
      have hown := hnew outcome List.mem_cons_self
      rw [← hsame] at hown
      refine (FileRecords.yields_merge hrefers outcome.path hwithin hown).bind
        fun _ next hmerged => ?_
      obtain ⟨hnext, rid, hrows⟩ := hmerged
      have hstill : ∀ other ∈ outcomes, next.documentRows.contains other.path = false := by
        intro other hother
        have hne : file.document.path ≠ other.path := by
          rw [hsame]
          exact fun heq => hpath (List.mem_map.mpr ⟨other, hother, heq.symm⟩)
        rw [hrows, Std.HashMap.contains_insert, hfree other hother, Bool.or_false]
        exact beq_eq_false_iff_ne.mpr hne
      exact (ih hnext hlater hpaths hstill).bind fun _ _ hafter => .pure hafter

end FileOutcome

namespace SourceFile

theorem mem_paths_addType {path other : String} {type : Token} {files : List SourceFile}
    (hother : other ∈ (addType path type files).map (·.path)) :
    other = path ∨ other ∈ files.map (·.path) := by
  induction files with
  | nil => exact .inl (by simpa [addType] using hother)
  | cons file files ih =>
    unfold addType at hother
    split at hother
    · exact .inr hother
    · rw [List.map_cons, List.mem_cons] at hother ⊢
      rcases hother with hfile | hrest
      · exact .inr (.inl hfile)
      · exact (ih hrest).imp_right .inr

theorem nodup_paths_addType (path : String) (type : Token) {files : List SourceFile}
    (hfiles : (files.map (·.path)).Nodup) : ((addType path type files).map (·.path)).Nodup := by
  induction files with
  | nil => exact List.pairwise_singleton _ _
  | cons file files ih =>
    obtain ⟨hfile, hrest⟩ := List.nodup_cons.mp hfiles
    unfold addType
    split
    · exact hfiles
    · next hne =>
      refine List.nodup_cons.mpr ⟨fun hagain => ?_, ih hrest⟩
      rcases mem_paths_addType hagain with hsame | hother
      · exact hne hsame
      · exact hfile hother

/-- Each source file of a module has a path of its own. -/
theorem nodup_paths (module : Module) (decompiler : Decompiler) (nestedDirectories : Bool) :
    ((ofModule module decompiler nestedDirectories).map (·.path)).Nodup := by
  have hfold (types : List ModuleType) {files : List SourceFile}
      (hfiles : (files.map (·.path)).Nodup) :
      ((types.foldl (fun files type => addType
        (VirtualPath.ofType nestedDirectories type.namespaceName type.name) type.token files)
          files).map (·.path)).Nodup := by
    induction types generalizing files with
    | nil => exact hfiles
    | cons type types ih => exact ih (nodup_paths_addType _ _ hfiles)
  exact hfold _ .nil

end SourceFile

variable {module : Module} {decompiler : Decompiler} {banner : Option String} {source : SourceFile}
  {compress : Bytes → Bytes}

/-- What is accepted of a function is about methods of the module. -/
theorem FileRecords.Accepts.isWithin (hmodule : module.IsCounted) {function : DecompiledFunction}
    {entry : MethodRecords} (haccepts : Accepts module function entry) :
    entry.IsWithin module.methodCount := by
  have hmethod := hmodule.isMethodWithin haccepts.exists_body
  refine ⟨hmethod, ?_, ?_⟩
  · intro machine hmachine
    rcases haccepts.records with hnone | hrecords
    · simp [hnone] at hmachine
    · obtain ⟨hmachines, _⟩ := FunctionRecords.ofFunction_eq_ok hrecords
      obtain ⟨hmoveNext, hkickoff, _⟩ := hmachines machine hmachine
      rw [hmoveNext, hkickoff, ← haccepts.method]
      exact ⟨hmethod, hmodule.isMethodWithin haccepts.exists_kickoff⟩
  · intro method blob hstepping
    rcases haccepts.records with hnone | hrecords
    · simp [hnone] at hstepping
    · obtain ⟨_, hsteps⟩ := FunctionRecords.ofFunction_eq_ok hrecords
      rw [(hsteps method blob hstepping).1, ← haccepts.method]
      exact hmethod

/-- Whatever comes of a source file is about methods of the module. -/
theorem FileRecords.isWithin_of_ofFile (hmodule : module.IsCounted) {file : FileRecords}
    (hfile : (FileOutcome.ofFile module decompiler banner source compress).records = some file) :
    file.IsWithin module.methodCount := by
  obtain ⟨decompiled, _, hof⟩ := exists_areOf hfile
  constructor
  · intro scope hscope
    exact hmodule.isMethodWithin (FileScopes.areOfMethods_of_ofFile hof.scopes scope hscope)
  · intro entry hentry
    obtain ⟨function, haccepts⟩ := hof.accepts entry hentry
    exact haccepts.isWithin hmodule

namespace DebugBuilder

/-- A run ends within the limits of a builder. If it fails, they also leave room for the value that
it fails for. -/
def EndsWithin {α : Type} : EStateM.Result Error DebugBuilder α → Prop
  | .ok _ after => after.IsWithin 0
  | .error error after => after.IsWithin error.refusedBytes

end DebugBuilder

namespace Generation

variable {options : GeneratorOptions} {newPool : PoolCreation}

/-- No table gets as many rows as tokens can number, and the heap of blobs stays below 512 megabytes
with all that is merged, wherever the run ends. -/
structure IsWithin (module : Module) (decompiler : Decompiler) (options : GeneratorOptions)
    (compress : Bytes → Bytes) : Prop where
  methods : module.methodCount.toNat < 0xFFFFFF
  merges : EndsWithin
    ((FileOutcome.mergeAll (outcomesOf module decompiler options compress)).run .empty)

/-- Merging the source files of a module fails only where a limit is reached. -/
theorem yields_mergeAll (hmodule : module.IsCounted) (decompiler : Decompiler)
    (options : GeneratorOptions) (compress : Bytes → Bytes) :
    Yields (fun _ after => after.Refers module.methodCount) Exceeds
      (FileOutcome.mergeAll (outcomesOf module decompiler options compress)) .empty := by
  apply FileOutcome.yields_mergeAll (refers_empty _)
  · intro outcome houtcome file hfile
    obtain ⟨source, _, rfl⟩ := List.mem_map.mp houtcome
    exact ⟨FileRecords.isWithin_of_ofFile hmodule hfile, FileOutcome.isOwn_ofFile.path file hfile⟩
  · have hpaths := SourceFile.nodup_paths module decompiler options.nestedDirectories
    rw [outcomesOf, List.map_map]
    simpa [Function.comp_def, FileRecords.path_ofFile] using hpaths
  · intro outcome _
    exact Std.HashMap.contains_empty

/-- The source files of a module are merged within limits. -/
theorem IsWithin.exists_mergeAll (hwithin : IsWithin module decompiler options compress)
    (hmodule : module.IsCounted) : ∃ diagnostics builder,
      (FileOutcome.mergeAll (outcomesOf module decompiler options compress)).run .empty =
        .ok diagnostics builder ∧
      builder.Refers module.methodCount ∧ builder.IsWithin 0 := by
  have hyields := yields_mergeAll hmodule decompiler options compress
  have hmerges := hwithin.merges
  cases hrun :
      (FileOutcome.mergeAll (outcomesOf module decompiler options compress)).run .empty with
  | ok diagnostics builder =>
    rw [hrun] at hmerges
    exact ⟨diagnostics, builder, rfl, hyields.of_ok hrun, hmerges⟩
  | error error builder =>
    rw [hrun] at hmerges
    exact absurd hmerges (hyields.of_error hrun)

theorem exists_contentIdOf (module : Module) (hoptions : options.requireCodeView = false) :
    ∃ contentId, contentIdOf module options = .ok contentId := by
  unfold contentIdOf
  split
  · exact ⟨_, rfl⟩
  · exact ⟨_, rfl⟩
  · rw [hoptions]
    exact ⟨none, rfl⟩

/-- Tables that are written for every content id are written with the one that is given, and with
the one that is derived if none is. -/
theorem exists_encodeWithId {tables : DebugTables}
    (hencode : ∀ id, ∃ data, tables.encode id module.entryPoint module.rowCounts = .ok data ∧
      data.size < 0x100000000) (contentId : Option (ContentId × ContentIdSource)) :
    ∃ written, encodeWithId module tables contentId = .ok written := by
  cases contentId with
  | some given =>
    obtain ⟨data, hdata, _⟩ := hencode given.1
    exact ⟨_, bind_eq_ok_iff.mpr ⟨data, hdata, rfl⟩⟩
  | none =>
    obtain ⟨blank, hblank, hsize⟩ := hencode .zero
    obtain ⟨data, _, hdata⟩ := DebugTables.withId_encode hblank hsize (.ofContent blank)
    exact ⟨_, bind_eq_ok_iff.mpr ⟨blank, hblank, bind_eq_ok_iff.mpr ⟨data, hdata, rfl⟩⟩⟩

/-- A run that is not cancelled before any of its files comes to what it does if nobody watches. -/
theorem generateWatched_eq {isCancelled : Nat → Bool}
    (hcancelled : ∀ before < (SourceFile.ofModule module decompiler
      options.nestedDirectories).length, isCancelled before = false) :
    (generateWatched module decompiler options isCancelled compress newPool).2 =
      generate module decompiler options compress newPool := by
  have hprocess : process module decompiler options isCancelled
      (SourceFile.ofModule module decompiler options.nestedDirectories) compress =
      process module decompiler options (fun _ => false)
        (SourceFile.ofModule module decompiler options.nestedDirectories) compress := by
    apply List.map_congr_left
    rintro ⟨file, before⟩ hfile
    have hlt := (List.mem_zipIdx hfile).2.1
    simp only [hcancelled before (by omega)]
  simp only [generate, generateWatched, hprocess]

/-- There is the pool of threads that the options ask for if pools of its size can be created. -/
theorem createPool_eq_ok
    (hpool : options.parallel = true → ∀ threads ∈ options.threads, newPool threads = .ok ()) :
    options.createPool newPool = .ok () := by
  unfold GeneratorOptions.createPool
  split
  · next threads hparallel hthreads =>
    rw [hpool hparallel threads hthreads]
    rfl
  · rfl

/-- A run within limits ends with a container that a word can measure. -/
theorem IsWithin.exists_generate (hwithin : IsWithin module decompiler options compress)
    (hmodule : module.IsCounted) (hoptions : options.requireCodeView = false)
    (hpool : options.parallel = true → ∀ threads ∈ options.threads, newPool threads = .ok ()) :
    ∃ generated, generate module decompiler options compress newPool = .ok generated ∧
      generated.data.size < 0x100000000 := by
  obtain ⟨contentId, hcontentId⟩ := exists_contentIdOf module hoptions
  obtain ⟨diagnostics, builder, hmerge, hrefers, hroom⟩ := hwithin.exists_mergeAll hmodule
  obtain ⟨tables, hfinish⟩ := hrefers.exists_finish hroom
  have hencode : ∀ id, ∃ data, tables.encode id module.entryPoint module.rowCounts = .ok data ∧
      data.size < 0x100000000 := fun id =>
    hrefers.exists_encode hroom (finishes_of_finish hfinish) (Nat.le_of_lt hwithin.methods)
      UInt32.le_rfl id module.entryPoint
  obtain ⟨⟨data, id, source⟩, hwritten⟩ := exists_encodeWithId hencode contentId
  have hsize : data.size < 0x100000000 := by
    obtain ⟨same, hsame, hsize⟩ := hencode id
    rw [encode_of_encodeWithId hwritten] at hsame
    rwa [Except.ok.inj hsame]
  have hassemble : ∃ report, assemble module contentId
      (outcomesOf module decompiler options compress) = .ok ⟨data, report⟩ := by
    unfold assemble
    rw [hmerge]
    exact ⟨_, bind_eq_ok_iff.mpr ⟨tables, hfinish, bind_eq_ok_iff.mpr ⟨_, hwritten, rfl⟩⟩⟩
  obtain ⟨report, hassembled⟩ := hassemble
  refine ⟨⟨data, report⟩, ?_, hsize⟩
  unfold generate generateWatched
  simp only [hcontentId, createPool_eq_ok hpool, mapM_process]
  exact hassembled

/-- A container is generated for every module that has the methods it says, whatever a decompiler
makes of it, as long as the run is not cancelled, no limit is reached, no content id is required
that there is not, and a pool of threads can be created if the run is to have one of its own. -/
theorem generate_succeeds (hmodule : module.IsCounted) (hoptions : options.requireCodeView = false)
    (hpool : options.parallel = true → ∀ threads ∈ options.threads, newPool threads = .ok ())
    (hwithin : IsWithin module decompiler options compress) :
    ∃ generated, generate module decompiler options compress newPool = .ok generated ∧
      ∀ isCancelled : Nat → Bool, (∀ before < (SourceFile.ofModule module decompiler
        options.nestedDirectories).length, isCancelled before = false) →
          (generateWatched module decompiler options isCancelled compress newPool).2 =
            .ok generated := by
  obtain ⟨generated, hgenerated, _⟩ := hwithin.exists_generate hmodule hoptions hpool
  exact ⟨generated, hgenerated, fun _ hcancelled =>
    (generateWatched_eq hcancelled).trans hgenerated⟩

/-- A run over one file of which no methods are kept, and whose document is short, is within
limits. -/
theorem isWithin_of_document (hcount : module.methodCount.toNat < 0xFFFFFF)
    {outcome : FileOutcome} (houtcomes : outcomesOf module decompiler options compress = [outcome])
    {document : SourceDocument} {functions : Array UInt32}
    (hrecords : outcome.records = some { document, scopes := { functions }, methods := [] })
    (hpath : document.path = "A.cs")
    (hnew : document.embedded ∉ [#[65, 46, 99, 115], #[47, 1], document.hash.toArray])
    (hvalue : document.embedded.isEmpty = false) (hshort : document.embedded.size < 0x80) :
    IsWithin module decompiler options compress := by
  obtain ⟨blobs, guids, hdocument, hblobs, _⟩ :=
    exists_addDocument_of_path hpath hnew hvalue hshort
  have hsize : blobs.size = 43 + document.embedded.size := by
    rw [BlobHeap.Builder.size, hblobs.data_eq]
    simp [Bytes.size_ofNatBE]
    omega
  have hmerge {after : DebugBuilder} (hadd : (addDocument document).run .empty = .ok 1 after) :
      (FileOutcome.mergeAll [outcome]).run .empty =
        .ok (outcome.diagnostics ++ [] ++ []) after := by
    rw [FileOutcome.mergeAll, hrecords]
    exact run_bind_eq_ok_iff.mpr ⟨[], after, run_bind_eq_ok_iff.mpr ⟨1, after, hadd, rfl⟩, rfl⟩
  refine ⟨hcount, ?_⟩
  rw [houtcomes, hmerge hdocument]
  have hroom : blobs.size < 0x20000000 := by omega
  constructor <;> simp [documentedBuilder, DebugBuilder.empty, hroom]

/-- A run over one file with the scope of one method, which has no points, is within limits if the
run up to the scope is. -/
theorem isWithin_of_method (hcount : module.methodCount.toNat < 0xFFFFFF) {path : String}
    {file : FileRecords}
    (houtcomes : outcomesOf module decompiler options compress = [{ path, records := some file }])
    {scope : MethodScope} {document : UInt32} {rows : Array UInt32}
    {documented builder : DebugBuilder}
    (hdocument : (addDocument file.document).run .empty = .ok document documented)
    (hnamespaces : (FileRecords.addNamespaces file.scopes.namespaces.toList #[]).run documented =
      .ok rows builder)
    (hscopes : file.scopes.methods.toList = [scope])
    (hmethods : file.methods = [⟨scope.method, none, {}⟩])
    (hmethod : scope.method.isTable .methodDef = true) (hkeys : builder.scopeKeys = ∅)
    (hnone : builder.methods = ∅) (hfirst : builder.localScopes = #[])
    (hwithin : builder.IsWithin 0) :
    IsWithin module decompiler options compress := by
  have hmerge : (FileOutcome.mergeAll [{ path, records := some file }]).run .empty = .ok _ _ :=
    run_bind_eq_ok_iff.mpr ⟨_, _, FileRecords.run_merge_of_method hdocument hnamespaces hscopes
      hmethods hmethod hkeys hnone, rfl⟩
  refine ⟨hcount, ?_⟩
  rw [houtcomes, hmerge]
  exact { hwithin with localScopes := by simp [hfirst] }

/-- A decompiler that tells of functions of which the module has no methods, of a type in place of
a method, of points out of order and of more locals than there can be. -/
def hostileDecompiler : Decompiler :=
  { builtDecompiler with
    decompile := fun _ => .ok {
      syntaxTrees := [⟨.method, some 1, [⟨.lambda, some 2, []⟩]⟩, ⟨.method, some 3, []⟩,
        ⟨.method, some 4, []⟩]
      functions := [{ id := 1, method := .methodDef 9 },
        { id := 2, method := .methodDef 8, moveNext := some (.methodDef 7), isAsync := true,
          hoistedLocals := 0xFFFFFFFF },
        { id := 3, method := .typeDef 1 }]
      points := .points (.ofList [(1, [.hidden 4, .hidden 0]), (5, [.hidden 0])]) } }

/-- The choice of a pool of two threads. -/
def pooledOptions : GeneratorOptions :=
  { sampleOptions with threads := some 2 }

/-- Where no pool has more than four threads. -/
def smallPools : PoolCreation :=
  fun threads => if threads ≤ 4 then .ok () else .error "Resource temporarily unavailable"

/-- Of the functions nothing is kept but that two of them were there. -/
theorem outcomesOf_hostile : ∃ outcome,
    outcomesOf builtModule hostileDecompiler pooledOptions Deflate.deflate = [outcome] ∧
      outcome.records = some {
        document := sampleRecords.document
        scopes := { functions := #[2, 1] }
        methods := [] } := by
  have hfiles : SourceFile.ofModule builtModule hostileDecompiler true =
      [⟨"A.cs", [.typeDef 2]⟩] := by decide
  refine ⟨FileOutcome.ofFile builtModule hostileDecompiler none ⟨"A.cs", [.typeDef 2]⟩, ?_, ?_⟩
  · change (SourceFile.ofModule builtModule hostileDecompiler true).map _ = _
    rw [hfiles]
    rfl
  · decide +kernel

theorem isWithin_hostile :
    IsWithin builtModule hostileDecompiler pooledOptions Deflate.deflate := by
  obtain ⟨outcome, houtcomes, hrecords⟩ := outcomesOf_hostile
  exact isWithin_of_document (by decide) houtcomes hrecords rfl (by decide) rfl (by decide)

theorem generate_succeeds_hostile :
    builtModule.IsCounted ∧ pooledOptions.requireCodeView = false ∧
      (pooledOptions.parallel = true ∧ pooledOptions.threads = some 2 ∧ smallPools 2 = .ok ()) ∧
      IsWithin builtModule hostileDecompiler pooledOptions Deflate.deflate ∧
      ∃ generated, generate builtModule hostileDecompiler pooledOptions Deflate.deflate smallPools =
        .ok generated := by
  have hpool : pooledOptions.parallel = true →
      ∀ threads ∈ pooledOptions.threads, smallPools threads = .ok () := by
    rintro _ threads hthreads
    cases hthreads
    rfl
  obtain ⟨generated, hgenerated, _⟩ :=
    generate_succeeds isCounted_builtModule rfl hpool isWithin_hostile
  exact ⟨isCounted_builtModule, rfl, ⟨rfl, rfl, rfl⟩, isWithin_hostile, generated, hgenerated⟩

end Generation

end PortablePdb
