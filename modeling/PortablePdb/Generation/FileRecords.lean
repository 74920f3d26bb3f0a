import PortablePdb.Diagnostics
import PortablePdb.Generation.Banner
import PortablePdb.Generation.Options
import PortablePdb.Generation.SourceFiles
import PortablePdb.Document.Source
import PortablePdb.Scopes.Collect
import PortablePdb.SequencePoints.Blob
import PortablePdb.StateMachine

namespace PortablePdb

/-- The records of a function: the method that holds its code, the blob of its points, and its state
machine. -/
structure MethodRecords where
  method : Token
  points : Option Bytes
  records : FunctionRecords
  deriving DecidableEq, Repr, Inhabited

/-- The records of a source file. -/
structure FileRecords where
  document : SourceDocument
  scopes : FileScopes
  methods : List MethodRecords
  deriving DecidableEq

/-- What came of a source file: its records, unless it has none, and the diagnostics about it. -/
structure FileOutcome where
  path : String
  records : Option FileRecords := none
  diagnostics : List Diagnostic := []

namespace FileRecords

/-- A diagnostic about a file and, it may be, a token. -/
def report (path : String) (severity : Severity) (category : Category) (message : String)
    (token : Option Token := none) : Diagnostic :=
  { severity, category, message, token, file := some path }

/-- The blob of the points of a method, after they were moved down by the lines of a banner. -/
def pointsOf (path : String) (shift : UInt32) (method : Token) (code : Option MethodCode)
    (points : List SequencePoint) : Option Bytes × List Diagnostic :=
  if points.isEmpty then (none, [])
  else
    match code with
    | none =>
      (none, [report path .warning .methodBody
        "Sequence points for a method without IL body dropped" method])
    | some code =>
      let degenerate := points.countP (·.isDegenerate)
      let marked :=
        if degenerate = 0 then []
        else [report path .warning .sequencePoints
          s!"{degenerate} sequence points with an empty span marked hidden" method]
      match SequencePoints.encode code.localSignature (points.map (·.prepare shift)) with
      | .ok blob => (blob, marked)
      | .error error =>
        (none, marked ++ [report path .warning .sequencePoints
          s!"Sequence points dropped - {error.message}" method])

/-- The state machine of a function. -/
def machineOf (path : String) (module : Module) (function : DecompiledFunction) :
    FunctionRecords × List Diagnostic :=
  match FunctionRecords.ofFunction function module with
  | .ok records => (records, [])
  | .error error =>
    ({}, [report path .warning .general
      s!"State machine information dropped - {error.message}" function.bodyMethod])

/-- The records of a function, unless one of its methods is not in the module. -/
def ofFunction (path : String) (module : Module) (shift : UInt32) (file : DecompiledFile)
    (function : DecompiledFunction) : Option MethodRecords × List Diagnostic :=
  let method := function.bodyMethod
  match module.method? method with
  | none => (none, [report path .warning .methodBody "Method is not defined in the module" method])
  | some body =>
    if (module.method? function.method).isNone then
      (none, [report path .warning .methodBody "Kickoff method is not defined in the module"
        function.method])
    else
      let (points, pointReports) :=
        pointsOf path shift method body.code ((file.points.get? function.id).getD [])
      let (records, machineReports) := machineOf path module function
      (some ⟨method, points, records⟩, pointReports ++ machineReports)

/-- What the functions of a file amount to, in the order in which their scopes were found. -/
def ofFunctions (path : String) (module : Module) (shift : UInt32) (file : DecompiledFile)
    (functions : List UInt32) : List (Option MethodRecords × List Diagnostic) :=
  (functions.filterMap file.function?).map (ofFunction path module shift file)

/-- The number of lines in front of a source text, and the text with its banner. -/
def sourceOf (banner : Option String) (file : DecompiledFile) : UInt32 × String :=
  match banner with
  | some banner => (Banner.lineCount banner, Banner.header banner ++ file.source)
  | none => (0, file.source)

/-- What comes of a decompiled file. A file without syntax and a file without points have no place
in debug data. -/
def ofDecompiled (path : String) (module : Module) (banner : Option String)
    (file : DecompiledFile) (compress : Bytes → Bytes := Deflate.deflate) : FileOutcome :=
  match file.points with
  | .omitted _ => { path }
  | .points _ =>
    if file.isEmpty then { path }
    else
      match FileScopes.ofFile file module with
      | .error error =>
        { path, diagnostics :=
            [report path .error .general s!"Scope collection failed - {error.message}"] }
      | .ok scopes =>
        let (shift, source) := sourceOf banner file
        match SourceDocument.ofText path source compress with
        | .error error =>
          { path, diagnostics :=
              [report path .error .general s!"Source could not be embedded - {error.message}"] }
        | .ok document =>
          let functions := ofFunctions path module shift file scopes.functions.toList
          { path
            records := some ⟨document, scopes, functions.filterMap (·.1)⟩
            diagnostics := functions.flatMap (·.2) }

end FileRecords

/-- What comes of a source file of a module. -/
def FileOutcome.ofFile (module : Module) (decompiler : Decompiler) (banner : Option String)
    (file : SourceFile) (compress : Bytes → Bytes := Deflate.deflate) : FileOutcome :=
  match decompiler.decompile file.types with
  | .ok decompiled => FileRecords.ofDecompiled file.path module banner decompiled compress
  | .error error =>
    { path := file.path
      diagnostics :=
        [FileRecords.report file.path .error .decompiler
          s!"Decompilation failed - {error.message}" file.types.head?] }

end PortablePdb
