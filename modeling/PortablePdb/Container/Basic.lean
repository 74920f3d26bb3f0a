import PortablePdb.Container.ContentId
import PortablePdb.CustomInfo.Blob
import PortablePdb.Imports.Basic
import PortablePdb.Metadata.Layout
import PortablePdb.SequencePoints.Basic

namespace PortablePdb

/-- A source document of a container. -/
structure Document where
  row : UInt32
  name : String
  hashAlgorithm : Guid
  hash : Bytes
  language : Guid
  /-- The text of the document, where the container embeds it. -/
  source : Option String := none
  deriving DecidableEq, Repr

/-- A method of a container, with its points if it has any. -/
structure DebugMethod where
  method : Token
  document : UInt32
  points : Option SequencePoints
  deriving DecidableEq, Repr

/-- A local variable of a scope, by its slot. -/
structure LocalVariable where
  index : UInt16
  name : String
  attributes : UInt16
  deriving DecidableEq, Repr, Inhabited

/-- A scope in the code of a method. -/
structure LocalScope where
  row : UInt32
  method : Token
  importScope : UInt32
  startOffset : UInt32
  length : UInt32
  slots : List LocalVariable
  deriving DecidableEq, Repr

/-- The imports of a scope, on top of those of its parent. -/
structure ImportScope where
  row : UInt32
  parent : UInt32
  imports : List Import
  deriving DecidableEq, Repr

/-- The methods that run and start a state machine. -/
structure MachineMethods where
  moveNext : Token
  kickoff : Token
  deriving DecidableEq, Repr

/-- A record of custom debug information about what a token names. -/
structure InfoRecord where
  row : UInt32
  parent : Token
  kind : CustomKind
  value : CustomInfo
  deriving DecidableEq, Repr

/-- A container of debug data, with names instead of positions in heaps, tokens instead of rows, and
values instead of blobs. -/
structure Container where
  id : ContentId
  entryPoint : Token
  /-- The row counts of the module's own tables. -/
  typeSystemRows : RowCounts
  /-- The tables that are present, with their row counts. -/
  tables : List (Table × UInt32)
  documents : Array Document
  methods : Array DebugMethod
  localScopes : Array LocalScope
  importScopes : Array ImportScope
  machines : Array MachineMethods
  info : Array InfoRecord
  deriving DecidableEq, Repr

namespace Container

/-- The document with a row. -/
def document? (container : Container) (row : UInt32) : Option Document :=
  container.documents.find? (·.row == row)

/-- The first document with a name. -/
def documentNamed? (container : Container) (name : String) : Option Document :=
  container.documents.find? (·.name == name)

/-- The method with a token. -/
def method? (container : Container) (token : Token) : Option DebugMethod :=
  if token.isTable .methodDef then container.methods[token.row.toNat - 1]? else none

/-- The scopes of a method. -/
def scopesOf (container : Container) (method : Token) : List LocalScope :=
  container.localScopes.toList.filter (·.method == method)

/-- The records about what a token names. -/
def infoOf (container : Container) (parent : Token) : List InfoRecord :=
  container.info.toList.filter (·.parent == parent)

/-- The number of rows that the container declares for a table. -/
def rowCount (container : Container) (table : Table) : UInt32 :=
  (container.tables.lookup table).getD 0

end Container

end PortablePdb
