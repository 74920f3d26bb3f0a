import PortablePdb.CommandLine.Arguments
import PortablePdb.CommandLine.Dump
import PortablePdb.CommandLine.Generated
import PortablePdb.CommandLine.Help
import PortablePdb.CommandLine.Info
import PortablePdb.Container.Read
import PortablePdb.Generation.Generate
import PortablePdb.Json.Printer
import PortablePdb.Module.Load

namespace PortablePdb.CommandLine

/-- The contents of files, by their paths. A path that leads to no file has none. -/
abbrev Contents := String → Option Bytes

/-- The step in which a run failed. -/
inductive Step where
  | loadAssembly (path : String)
  | loadManifest (path : String)
  | readContainer (path : String)
  | parseContainer (path : String)
  | generate (path : String)
  | write (path : String)
  deriving DecidableEq, Repr

/-- The wording of a failed step. -/
def Step.message : Step → String
  | .loadAssembly path => s!"failed to load assembly: {path}"
  | .loadManifest path => s!"failed to load manifest: {path}"
  | .readContainer path => s!"failed to read: {path}"
  | .parseContainer path => s!"not a Portable PDB: {path}"
  | .generate path => s!"failed to generate PDB for {path}"
  | .write path => s!"failed to write {path}"

/-- A step that failed, and why. -/
structure Failure where
  step : Step
  cause : Error
  deriving DecidableEq, Repr

/-- What a run prints, and the file that it leaves. -/
structure Answer where
  output : String
  file : Option (String × Bytes) := none

/-- The result of a step of a run. -/
def Step.run {α : Type} (step : Step) (result : Except Error α) : Except Failure α :=
  result.mapError (⟨step, ·⟩)

/-- The bytes of a file. -/
def Contents.bytes (contents : Contents) (path : String) : Except Error Bytes :=
  match contents path with
  | some data => .ok data
  | none => .error .file

/-- The module of the assembly in a file. -/
def Contents.module (contents : Contents) (path : String) : Except Error Module := do
  Module.ofBytes (← contents.bytes path)

/-- The manifest in a file. -/
def Contents.manifest (contents : Contents) (path : String) : Except Error Manifest := do
  match Bytes.toText? (← contents.bytes path) with
  | some text => Manifest.parse text
  | none => .error .file

/-- The form of an answer: JSON, or lines for people. -/
def render (json : Bool) (value : Json) (lines : List String) : String :=
  if json then value.pretty ++ "\n" else String.join (lines.map (· ++ "\n"))

/-- The choices that a command line makes for the generation. -/
def GenerateChoices.options (choices : GenerateChoices) : GeneratorOptions where
  nestedDirectories := !choices.flat
  parallel := !choices.sequential
  threads := choices.threads
  requireCodeView := choices.requireCodeView
  banner := choices.banner

/-- The path of the container: beside the assembly, unless another one is chosen. -/
def GenerateChoices.target (choices : GenerateChoices) : String :=
  choices.output.getD (Path.withExtension choices.assembly "pdb")

namespace Command

/-- The answer to a command. -/
def answer (contents : Contents) (json : Bool) : Command → Except Failure Answer
  | .generate choices => do
    let module ← (Step.loadAssembly choices.assembly).run (contents.module choices.assembly)
    let manifest ← (Step.loadManifest choices.manifest).run (contents.manifest choices.manifest)
    let result ← (Step.generate choices.assembly).run
      (Generation.generate module manifest.decompiler choices.options)
    let summary := GeneratedSummary.ofReport choices.assembly choices.target result.report
    return ⟨render json summary.toJson summary.toLines, some (choices.target, result.data)⟩
  | .dump path points => do
    let data ← (Step.readContainer path).run (contents.bytes path)
    let container ← (Step.parseContainer path).run (Container.ofBytes data)
    let summary := ContainerSummary.ofContainer path points container
    return ⟨render json summary.toJson summary.toLines, none⟩
  | .info path => do
    let module ← (Step.loadAssembly path).run (contents.module path)
    let summary := AssemblySummary.ofModule path module
    return ⟨render json summary.toJson summary.toLines, none⟩

/-- The paths of the files that a command reads. -/
def inputs : Command → List String
  | .generate choices => [choices.assembly, choices.manifest]
  | .dump path _ => [path]
  | .info path => [path]

end Command

/-- How a run ends. -/
structure Outcome where
  code : UInt8
  output : String := ""
  failure : Option Failure := none

namespace Outcome

/-- The end of a run that failed. -/
def ofFailure (failure : Failure) : Outcome where
  code := 1
  failure := some failure

/-- The end of a run whose command line has no meaning. -/
def usage : Outcome where
  code := 2

/-- The end of a run that prints a text. -/
def ofOutput (output : String) : Outcome where
  code := 0
  output := output

end Outcome

end PortablePdb.CommandLine
