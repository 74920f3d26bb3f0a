import PortablePdb.Container.Basic
import PortablePdb.Container.Tables
import PortablePdb.Metadata.Rows.Json

namespace PortablePdb

/-- All fields are written. -/
def SequencePoints.toJson (points : SequencePoints) : Json :=
  .object
    [("local_signature", .nat points.localSignature.toNat),
      ("initial_document", Json.ofOption (fun n => .nat n.toNat) points.initialDocument),
      ("points", Json.ofList SequencePoint.toJson points.points)]

/-- An import is an object with one member, which tells what kind of import it is. -/
def Import.toJson : Import → Json
  | .importNamespace name => kind "ImportNamespace" [("namespace", .string name)]
  | .importAssemblyNamespace assembly name =>
    kind "ImportAssemblyNamespace"
      [("assembly_ref", assembly.toJson), ("namespace", .string name)]
  | .importType type => kind "ImportType" [("type_ref", type.toJson)]
  | .importXmlNamespace shortName name =>
    kind "ImportXmlNamespace" [("alias", .string shortName), ("namespace", .string name)]
  | .importAssemblyReferenceAlias shortName =>
    kind "ImportAssemblyReferenceAlias" [("alias", .string shortName)]
  | .defineAssemblyAlias shortName assembly =>
    kind "DefineAssemblyAlias" [("alias", .string shortName), ("assembly_ref", assembly.toJson)]
  | .defineNamespaceAlias shortName name =>
    kind "DefineNamespaceAlias" [("alias", .string shortName), ("namespace", .string name)]
  | .defineAssemblyNamespaceAlias shortName assembly name =>
    kind "DefineAssemblyNamespaceAlias"
      [("alias", .string shortName), ("assembly_ref", assembly.toJson), ("namespace", .string name)]
  | .defineTypeAlias shortName type =>
    kind "DefineTypeAlias" [("alias", .string shortName), ("type_ref", type.toJson)]
where
  /-- An object with one member. -/
  kind (name : String) (fields : List (String × Json)) : Json :=
    .object [(name, .object fields)]

/-- The JSON form of the imports of a scope. -/
def Imports.toJson (imports : List Import) : Json :=
  .object [("declarations", Json.ofList Import.toJson imports)]

/-- All fields are written. -/
def HoistedScope.toJson (scope : HoistedScope) : Json :=
  .object [("start", .nat scope.start.toNat), ("length", .nat scope.length.toNat)]

/-- A value is an object with one member, which tells what kind of value it is. -/
def CustomInfo.toJson : CustomInfo → Json
  | .embeddedSource content isCompressed =>
    kind "EmbeddedSource" [("content", .string content), ("was_compressed", .bool isCompressed)]
  | .hoistedLocalScopes scopes =>
    kind "HoistedLocalScopes" [("scopes", Json.ofList HoistedScope.toJson scopes)]
  | .asyncStepping stepping => .object [("AsyncMethodStepping", stepping.toJson)]
  | .sourceLink document => kind "SourceLink" [("document", .string document)]
  | .compilationMetadata metadata => kind "CompilationMetadata" [("metadata", .string metadata)]
  | .compilationOptions options => kind "CompilationOptions" [("options", .string options)]
  | .unknown data => kind "Unknown" [("data", ofBytes data)]
where
  /-- An object with one member. -/
  kind (name : String) (fields : List (String × Json)) : Json :=
    .object [(name, .object fields)]
  /-- Bytes as a list of numbers. -/
  ofBytes (data : Bytes) : Json :=
    Json.ofList (fun byte => .nat byte.toNat) data.toList

/-- The source is left out where there is none. -/
def Document.toJson (document : Document) : Json :=
  .object <|
    [("row", .nat document.row.toNat), ("name", .string document.name),
      ("hash_algorithm", .string document.hashAlgorithm.toText),
      ("hash", CustomInfo.toJson.ofBytes document.hash),
      ("language", .string document.language.toText)] ++
    (document.source.map fun source => ("source", Json.string source)).toList

/-- The points are left out where there are none. -/
def DebugMethod.toJson (method : DebugMethod) : Json :=
  .object <|
    [("method", method.method.toJson), ("document", .nat method.document.toNat)] ++
    (method.points.map fun points => ("sequence_points", points.toJson)).toList

/-- All fields are written. -/
def LocalVariable.toJson (slot : LocalVariable) : Json :=
  .object
    [("index", .nat slot.index.toNat), ("name", .string slot.name),
      ("attributes", .nat slot.attributes.toNat)]

/-- All fields are written. -/
def LocalScope.toJson (scope : LocalScope) : Json :=
  .object
    [("row", .nat scope.row.toNat), ("method", scope.method.toJson),
      ("import_scope", .nat scope.importScope.toNat),
      ("start_offset", .nat scope.startOffset.toNat), ("length", .nat scope.length.toNat),
      ("variables", Json.ofList LocalVariable.toJson scope.slots)]

/-- All fields are written. -/
def ImportScope.toJson (scope : ImportScope) : Json :=
  .object
    [("row", .nat scope.row.toNat), ("parent", .nat scope.parent.toNat),
      ("imports", Imports.toJson scope.imports)]

/-- All fields are written. -/
def MachineMethods.toJson (machine : MachineMethods) : Json :=
  .object [("move_next", machine.moveNext.toJson), ("kickoff", machine.kickoff.toJson)]

/-- All fields are written. -/
def InfoRecord.toJson (record : InfoRecord) : Json :=
  .object
    [("row", .nat record.row.toNat), ("parent", record.parent.toJson),
      ("kind", .string record.kind.name), ("value", record.value.toJson)]

/-- The row counts that are not zero, with their table ids. -/
def RowCounts.toJson (rows : RowCounts) : Json :=
  .array <| (rows.toList.zipIdx.filter (·.1 ≠ 0)).map fun entry =>
    .array [.nat entry.2, .nat entry.1.toNat]

namespace Container

/-- The members of the JSON form of a container. -/
def toMembers (container : Container) : List (String × Json) :=
  [("id", .string container.id.toText), ("entry_point", container.entryPoint.toJson),
    ("documents", Json.ofList Document.toJson container.documents.toList),
    ("methods", Json.ofList DebugMethod.toJson container.methods.toList),
    ("local_scopes", Json.ofList LocalScope.toJson container.localScopes.toList),
    ("import_scopes", Json.ofList ImportScope.toJson container.importScopes.toList),
    ("state_machines", Json.ofList MachineMethods.toJson container.machines.toList),
    ("custom_debug_information", Json.ofList InfoRecord.toJson container.info.toList),
    ("tables", Json.ofList (fun entry => .array [.string entry.1.name, .nat entry.2.toNat])
      container.tables),
    ("type_system_rows", container.typeSystemRows.toJson)]

end Container

/-- The rows of the debug tables, by the names of the tables. -/
def DebugTables.rowMembers (tables : DebugTables) : List (String × Json) :=
  [("Document", Row.allToJson tables.documents),
    ("MethodDebugInformation", Row.allToJson tables.methods),
    ("LocalScope", Row.allToJson tables.localScopes),
    ("LocalVariable", Row.allToJson tables.localVariables),
    ("LocalConstant", Row.allToJson tables.localConstants),
    ("ImportScope", Row.allToJson tables.importScopes),
    ("StateMachineMethod", Row.allToJson tables.stateMachines),
    ("CustomDebugInformation", Row.allToJson tables.customInfo)]

end PortablePdb
