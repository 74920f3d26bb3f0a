import PortablePdb.CommandLine.Columns
import PortablePdb.CommandLine.Label
import PortablePdb.CommandLine.Path
import PortablePdb.Container.Json
import PortablePdb.Document.Source

namespace PortablePdb.CommandLine

/-- A document, as it is shown. -/
structure DocumentSummary where
  row : UInt32
  name : String
  language : String
  hash : Bytes
  /-- The number of bytes of the embedded text. -/
  sourceSize : Option Nat
  /-- The number of methods that start in the document. -/
  methods : Nat

/-- The points of a method, and the document in which they start. -/
structure MethodSummary where
  method : Token
  document : UInt32
  points : List SequencePoint

/-- A container, as it is shown. -/
structure ContainerSummary where
  file : String
  id : ContentId
  entryPoint : Token
  tables : List (Table × UInt32)
  documents : List DocumentSummary
  methods : List MethodSummary

/-- The document in which a method starts: the one of its row, or the one that its points tell. -/
def startDocument (method : DebugMethod) : UInt32 :=
  if method.document ≠ 0 then method.document
  else (method.points.bind (·.initialDocument)).getD 0

/-- The name of a language. -/
def languageName (language : Guid) : String :=
  if language = csharpLanguage then "C#" else language.toText

/-- The summary of a document. -/
def DocumentSummary.ofDocument (container : Container) (document : Document) :
    DocumentSummary where
  row := document.row
  name := document.name
  language := languageName document.language
  hash := document.hash
  sourceSize := document.source.map (·.utf8ByteSize)
  methods := container.methods.toList.countP (startDocument · == document.row)

/-- The summary of a method that has points. -/
def MethodSummary.ofMethod? (method : DebugMethod) : Option MethodSummary :=
  method.points.map fun points => ⟨method.method, startDocument method, points.points⟩

/-- The summary of the container in a file, with or without the points of its methods. -/
def ContainerSummary.ofContainer (path : String) (points : Bool) (container : Container) :
    ContainerSummary where
  file := Path.fileName path
  id := container.id
  entryPoint := container.entryPoint
  tables := container.tables
  documents := container.documents.toList.map (DocumentSummary.ofDocument container)
  methods := if points then container.methods.toList.filterMap MethodSummary.ofMethod? else []

/-- All fields are written; a missing size is null. -/
def DocumentSummary.toJson (document : DocumentSummary) : Json :=
  .object
    [("row", .nat document.row.toNat), ("name", .string document.name),
      ("language", .string document.language), ("hash", .string (Text.Hex.ofBytes document.hash)),
      ("source_size", Json.ofOption Json.nat document.sourceSize),
      ("methods", .nat document.methods)]

/-- All fields are written. -/
def MethodSummary.toJson (method : MethodSummary) : Json :=
  .object
    [("method", method.method.toJson), ("document", .nat method.document.toNat),
      ("points", Json.ofList SequencePoint.toJson method.points)]

namespace ContainerSummary

/-- The methods are left out where there are none. -/
def toJson (summary : ContainerSummary) : Json :=
  let table : Table × UInt32 → Json := fun (table, rows) =>
    .object [("table", .string table.name), ("rows", .nat rows.toNat)]
  .object <|
    [("file", .string summary.file), ("id", .string summary.id.toText),
      ("entry_point", summary.entryPoint.toJson),
      ("tables", Json.ofList table summary.tables),
      ("documents", Json.ofList DocumentSummary.toJson summary.documents)] ++
    (if summary.methods.isEmpty then []
      else [("methods", Json.ofList MethodSummary.toJson summary.methods)])

/-- The line for a point. -/
def pointLine (point : SequencePoint) : String :=
  s!"  IL_{upperHex 4 point.offset.toNat}  " ++
    if point.isHidden then "hidden"
    else s!"({point.startLine},{point.startColumn})-({point.endLine},{point.endColumn})"

/-- The lines for documents. -/
def documentLines (documents : List DocumentSummary) : List String :=
  let row (document : DocumentSummary) : List String :=
    [toString document.row, document.language, toString document.methods,
      (document.sourceSize.map sizeText).getD "-", document.name]
  let header : List (String × Align) :=
    [("Row", .right), ("Language", .left), ("Methods", .right), ("Source", .right), ("Name", .left)]
  (Columns.lines header (documents.map row)).map ("  " ++ ·)

/-- The lines for a method. -/
def methodLines (method : MethodSummary) : List String :=
  ["", s!"{method.method} (document {method.document}):"] ++ method.points.map pointLine

/-- The lines for a container. -/
def toLines (summary : ContainerSummary) : List String :=
  let tables := summary.tables.map fun (table, rows) => [table.name, toString rows]
  [labelled "File" summary.file,
    labelled "PDB id" summary.id.toText,
    labelled "Entry point" (toString summary.entryPoint),
    "",
    "Tables:"] ++
  (Columns.lines [("Table", .left), ("Rows", .right)] tables).map ("  " ++ ·) ++
  (if summary.documents.isEmpty then []
    else ["", "Documents:"] ++ documentLines summary.documents) ++
  summary.methods.flatMap methodLines

end ContainerSummary

end PortablePdb.CommandLine
