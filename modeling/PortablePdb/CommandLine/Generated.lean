import PortablePdb.CommandLine.Columns
import PortablePdb.CommandLine.Label
import PortablePdb.CommandLine.Path
import PortablePdb.Generation.Report

namespace PortablePdb.CommandLine

/-- A container that was written, as it is shown. -/
structure GeneratedSummary where
  assembly : String
  output : String
  report : GenerationReport

namespace GeneratedSummary

/-- The summary of a container that was generated for an assembly, and written to a path. -/
def ofReport (assembly output : String) (report : GenerationReport) : GeneratedSummary :=
  ⟨Path.fileName assembly, output, report⟩

/-- The paths, and the members of the report. -/
def toJson (summary : GeneratedSummary) : Json :=
  .object <|
    [("assembly", .string summary.assembly), ("output", .string summary.output)] ++
    summary.report.toMembers

/-- The lines for the numbers of a report. -/
def countLines (report : GenerationReport) : List String :=
  let rows :=
    [("Source files", report.sourceFiles), ("Documents", report.documents),
      ("Methods with sequence points", report.methodsWithPoints),
      ("Local scopes", report.localScopes), ("Import scopes", report.importScopes),
      ("State machine methods", report.stateMachines),
      ("Custom debug information", report.customInfo)]
  Columns.lines [("Item", .left), ("Count", .right)]
    (rows.map fun (item, count) => [item, toString count])

/-- The lines for diagnostics. -/
def diagnosticLines (diagnostics : List Diagnostic) : List String :=
  let row (diagnostic : Diagnostic) : List String :=
    [diagnostic.severity.label, diagnostic.category.name,
      (diagnostic.token.map toString).getD "-", diagnostic.file.getD "-", diagnostic.message]
  let header : List (String × Align) :=
    [("Severity", .left), ("Category", .left), ("Token", .left), ("File", .left),
      ("Message", .left)]
  let errors := Diagnostics.count .error diagnostics
  s!"Diagnostics ({diagnostics.length}, {errors} errors):" ::
    (Columns.lines header (diagnostics.map row)).map ("  " ++ ·)

/-- The lines for a container that was written. -/
def toLines (summary : GeneratedSummary) : List String :=
  let report := summary.report
  [labelled "Assembly" summary.assembly,
    labelled "Output" summary.output,
    labelled "PDB id" s!"{report.contentId.toText} ({report.contentIdSource.name})",
    labelled "Size" (sizeText report.size),
    ""] ++
  countLines report ++
  (if report.diagnostics.isEmpty then [] else "" :: diagnosticLines report.diagnostics)

end GeneratedSummary

end PortablePdb.CommandLine
