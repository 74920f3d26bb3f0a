import PortablePdb.CommandLine.Columns
import PortablePdb.CommandLine.Label
import PortablePdb.CommandLine.Path
import PortablePdb.Container.ContentId
import PortablePdb.Decompiled.Values
import PortablePdb.Module.Basic

namespace PortablePdb.CommandLine

/-- An assembly, as it is shown. -/
structure AssemblySummary where
  file : String
  module : Module

namespace AssemblySummary

/-- The summary of the assembly in a file. -/
def ofModule (path : String) (module : Module) : AssemblySummary :=
  ⟨Path.fileName path, module⟩

/-- The text for the method that starts the program. -/
def entryPointText (module : Module) : String :=
  if module.entryPoint.isNull then "none" else toString module.entryPoint

/-- The number of methods that have code. -/
def methodsWithBody (module : Module) : Nat :=
  module.methods.toList.countP (·.code.isSome)

/-- The text for a stamp. -/
def stampText (stamp : UInt32) : String :=
  "0x" ++ upperHex 8 stamp.toNat

/-- The text for a version. -/
def versionOf (entry : DebugEntry) : String :=
  upperHex 4 entry.majorVersion.toNat ++ "." ++ upperHex 4 entry.minorVersion.toNat

/-- The name of a type of debug entries. -/
def typeName (type : UInt32) : String :=
  match type.toNat with
  | 2 => "CodeView"
  | 12 => "VcFeature"
  | 13 => "POGO"
  | 14 => "ILTCG"
  | 16 => "Reproducible"
  | 17 => "EmbeddedPortablePdb"
  | 19 => "PdbChecksum"
  | _ => "Other"

/-- The id that a container of the assembly gets. -/
def containerId (codeView : CodeView) : ContentId :=
  ⟨codeView.guid, codeView.stamp⟩

/-- The record of the debug container is left out where there is none. -/
def toJson (summary : AssemblySummary) : Json :=
  let module := summary.module
  let codeViewJson (codeView : CodeView) : Json := .object
    [("guid", .string codeView.guid.toText), ("age", .nat codeView.age.toNat),
      ("path", .string codeView.path), ("time_date_stamp", .string (stampText codeView.stamp)),
      ("pdb_id", .string (containerId codeView).toText)]
  let entryJson (entry : DebugEntry) : Json := .object
    [("debug_type", .nat entry.type.toNat), ("time_date_stamp", .string (stampText entry.stamp)),
      ("version", .string (versionOf entry)), ("size", .nat entry.size.toNat)]
  .object <|
    [("file", .string summary.file), ("module", .string module.name),
      ("entry_point", .string (entryPointText module)),
      ("type_count", .nat module.types.size),
      ("top_level_type_count", .nat module.topLevelTypes.length),
      ("method_count", .nat module.methodCount.toNat),
      ("methods_with_body", .nat (methodsWithBody module))] ++
    (module.codeView.map fun codeView => ("codeview", codeViewJson codeView)).toList ++
    [("debug_directory", Json.ofList entryJson module.debugEntries)]

/-- The lines for the record of the debug container. -/
def codeViewLines : Option CodeView → List String
  | some codeView =>
    [labelled "CodeView" s!"{codeView.guid.toText} age {codeView.age}",
      labelled "  PDB path" codeView.path,
      labelled "  Time stamp" (stampText codeView.stamp),
      labelled "  PDB id" (containerId codeView).toText]
  | none => [labelled "CodeView" "none (the PDB id will be derived from content)"]

/-- The lines for debug entries. -/
def debugEntryLines (entries : List DebugEntry) : List String :=
  let row (entry : DebugEntry) : List String :=
    [s!"{typeName entry.type} ({entry.type})", stampText entry.stamp, versionOf entry,
      toString entry.size]
  let header : List (String × Align) :=
    [("Type", .left), ("Stamp", .left), ("Version", .left), ("Size", .right)]
  (Columns.lines header (entries.map row)).map ("  " ++ ·)

/-- The lines for an assembly. -/
def toLines (summary : AssemblySummary) : List String :=
  let module := summary.module
  [labelled "File" summary.file,
    labelled "Module" module.name,
    labelled "Entry point" (entryPointText module),
    labelled "Types" s!"{module.types.size} ({module.topLevelTypes.length} top-level)",
    labelled "Methods" s!"{module.methodCount} ({methodsWithBody module} with IL body)"] ++
  codeViewLines module.codeView ++
  (if module.debugEntries.isEmpty then []
    else ["", "Debug directory:"] ++ debugEntryLines module.debugEntries)

end AssemblySummary

end PortablePdb.CommandLine
