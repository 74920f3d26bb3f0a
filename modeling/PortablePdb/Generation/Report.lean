import PortablePdb.Container.ContentId
import PortablePdb.Decompiled.Values
import PortablePdb.Diagnostics

namespace PortablePdb

/-- Where the content id of a container comes from. -/
inductive ContentIdSource where
  /-- The assembly says it. -/
  | codeView
  /-- The caller says it. -/
  | explicit
  /-- It is derived from the content. -/
  | minted
  deriving DecidableEq, Repr

/-- The name of a source of content ids. -/
def ContentIdSource.name : ContentIdSource → String
  | .codeView => "CodeView"
  | .explicit => "Explicit"
  | .minted => "Minted"

/-- What a generated container has in it. -/
structure GenerationReport where
  contentId : ContentId
  contentIdSource : ContentIdSource
  sourceFiles : Nat
  documents : Nat
  methodsWithPoints : Nat
  methodRows : Nat
  localScopes : Nat
  importScopes : Nat
  stateMachines : Nat
  customInfo : Nat
  size : Nat
  diagnostics : List Diagnostic
  deriving DecidableEq, Repr

/-- All fields are written; a missing token or file is null. -/
def Diagnostic.toJson (diagnostic : Diagnostic) : Json :=
  .object
    [("severity", .string diagnostic.severity.name),
      ("category", .string diagnostic.category.name),
      ("message", .string diagnostic.message),
      ("token", Json.ofOption Token.toJson diagnostic.token),
      ("file", Json.ofOption Json.string diagnostic.file)]

/-- The members of the JSON form of a report. -/
def GenerationReport.toMembers (report : GenerationReport) : List (String × Json) :=
  [("content_id", .string report.contentId.toText),
    ("content_id_source", .string report.contentIdSource.name),
    ("source_files", .nat report.sourceFiles),
    ("documents", .nat report.documents),
    ("methods_with_sequence_points", .nat report.methodsWithPoints),
    ("method_debug_rows", .nat report.methodRows),
    ("local_scopes", .nat report.localScopes),
    ("import_scopes", .nat report.importScopes),
    ("state_machine_methods", .nat report.stateMachines),
    ("custom_debug_information", .nat report.customInfo),
    ("size", .nat report.size),
    ("diagnostics", Json.ofList Diagnostic.toJson report.diagnostics)]

end PortablePdb
