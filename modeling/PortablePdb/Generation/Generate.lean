import PortablePdb.Container.Encode
import PortablePdb.Generation.Merge
import PortablePdb.Generation.Report

namespace PortablePdb

/-- A generated container, with the report about it. -/
structure GeneratedContainer where
  data : Bytes
  report : GenerationReport

/-- A source file that is done. -/
structure Progress where
  /-- The number of files that are done, with this one. -/
  completed : Nat
  total : Nat
  path : String
  deriving DecidableEq, Repr

namespace Generation

/-- The content id that the caller or the assembly says, unless there is none. -/
def contentIdOf (module : Module) (options : GeneratorOptions) :
    Except Error (Option (ContentId × ContentIdSource)) :=
  match options.contentId, module.codeView with
  | some id, _ => .ok (some (id, .explicit))
  | none, some codeView => .ok (some (⟨codeView.guid, codeView.stamp⟩, .codeView))
  | none, none =>
    if options.requireCodeView then .error (.missingCodeView module.name) else .ok none

/-- The diagnostic about a container whose content id has to be derived. -/
def mintedReport (module : Module) : Diagnostic where
  severity := .warning
  category := .contentId
  message := s!"{module.name} has no CodeView entry; the PDB id is derived from its content"

/-- The written container, with its content id. Where none is given, it is derived from the
container with an id of zeros. -/
def encodeWithId (module : Module) (tables : DebugTables) :
    Option (ContentId × ContentIdSource) → Except Error (Bytes × ContentId × ContentIdSource)
  | some (id, source) => do
    return (← tables.encode id module.entryPoint module.rowCounts, id, source)
  | none => do
    let data ← tables.encode .zero module.entryPoint module.rowCounts
    let id := ContentId.ofContent data
    return (← Container.withId data id, id, .minted)

/-- The container of what came of the source files. -/
def assemble (module : Module) (contentId : Option (ContentId × ContentIdSource))
    (outcomes : List FileOutcome) : Except Error GeneratedContainer :=
  match (FileOutcome.mergeAll outcomes).run .empty with
  | .error error _ => .error error
  | .ok diagnostics builder => do
    let tables ← builder.finish module.methodCount
    let (data, id, source) ← encodeWithId module tables contentId
    let minted := if contentId.isNone then [mintedReport module] else []
    let report : GenerationReport :=
      { contentId := id
        contentIdSource := source
        sourceFiles := outcomes.length
        documents := tables.documents.size
        methodsWithPoints := tables.methodsWithPoints
        methodRows := tables.methods.size
        localScopes := tables.localScopes.size
        importScopes := tables.importScopes.size
        stateMachines := tables.stateMachines.size
        customInfo := tables.customInfo.size
        size := data.size
        diagnostics := minted ++ diagnostics }
    return ⟨data, report⟩

/-- What came of source files. An observer is asked before each of them whether the run is
cancelled, and `isCancelled` is its answer before the file at an index. -/
def process (module : Module) (decompiler : Decompiler) (options : GeneratorOptions)
    (isCancelled : Nat → Bool) (files : List SourceFile)
    (compress : Bytes → Bytes := Deflate.deflate) : List (Option FileOutcome) :=
  files.zipIdx.map fun (file, before) =>
    if isCancelled before then none
    else some (FileOutcome.ofFile module decompiler options.banner file compress)

/-- The progress of a run, file by file. This is the order in which files are done unless several
threads work on them. -/
def progressOf (outcomes : List (Option FileOutcome)) : List Progress :=
  (outcomes.filterMap id).zipIdx.map fun (outcome, before) =>
    ⟨before + 1, outcomes.length, outcome.path⟩

/-- The container of a module, and the progress of the run that made it. The run depends on threads
only in that there is none without the pool that the options ask for. -/
def generateWatched (module : Module) (decompiler : Decompiler) (options : GeneratorOptions)
    (isCancelled : Nat → Bool) (compress : Bytes → Bytes := Deflate.deflate)
    (newPool : PoolCreation := fun _ => .ok ()) : List Progress × Except Error GeneratedContainer :=
  match contentIdOf module options, options.createPool newPool with
  | .error error, _ => ([], .error error)
  | .ok _, .error error => ([], .error error)
  | .ok contentId, .ok () =>
    let files := SourceFile.ofModule module decompiler options.nestedDirectories
    let outcomes := process module decompiler options isCancelled files compress
    let result := match outcomes.mapM id with
      | some outcomes => assemble module contentId outcomes
      | none => .error .cancelled
    (progressOf outcomes, result)

/-- The container of a module. -/
def generate (module : Module) (decompiler : Decompiler) (options : GeneratorOptions)
    (compress : Bytes → Bytes := Deflate.deflate) (newPool : PoolCreation := fun _ => .ok ()) :
    Except Error GeneratedContainer :=
  (generateWatched module decompiler options (fun _ => false) compress newPool).2

end Generation

end PortablePdb
