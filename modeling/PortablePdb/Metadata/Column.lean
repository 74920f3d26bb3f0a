import PortablePdb.Metadata.Layout

namespace PortablePdb

/-- What a column holds. -/
inductive Column where
  | u16
  | u32
  /-- An index into the heap of strings. -/
  | string
  /-- A number of the heap of identifiers. -/
  | guid
  /-- An index into the heap of blobs. -/
  | blob
  /-- A row of a table. -/
  | row (table : Table)
  /-- A row of one of several tables. -/
  | coded (kind : CodedKind)
  deriving DecidableEq, Repr

namespace Column

/-- The number of bytes of a column. -/
def size (layout : Layout) : Column → Nat
  | .u16 => 2
  | .u32 => 4
  | .string => layout.stringIndexBytes
  | .guid => layout.guidIndexBytes
  | .blob => layout.blobIndexBytes
  | .row table => layout.rowIndexBytes table
  | .coded kind => layout.codedIndexBytes kind

/-- The name of what a column holds. -/
def describe : Column → String
  | .u16 => "U16"
  | .u32 => "U32"
  | .string => "Str"
  | .guid => "Guid"
  | .blob => "Blob"
  | .row table => s!"Table({table.name})"
  | .coded kind => s!"Coded({kind.name})"

end Column

namespace Table

/-- The columns of a table, in order. -/
def columns : Table → List Column
  | .module => [.u16, .string, .guid, .guid, .guid]
  | .typeRef => [.coded .resolutionScope, .string, .string]
  | .typeDef => [.u32, .string, .string, .coded .typeDefOrRef, .row .field, .row .methodDef]
  | .fieldPtr => [.row .field]
  | .field => [.u16, .string, .blob]
  | .methodPtr => [.row .methodDef]
  | .methodDef => [.u32, .u16, .u16, .string, .blob, .row .param]
  | .paramPtr => [.row .param]
  | .param => [.u16, .u16, .string]
  | .interfaceImpl => [.row .typeDef, .coded .typeDefOrRef]
  | .memberRef => [.coded .memberRefParent, .string, .blob]
  | .constant => [.u16, .coded .hasConstant, .blob]
  | .customAttribute => [.coded .hasCustomAttribute, .coded .customAttributeType, .blob]
  | .fieldMarshal => [.coded .hasFieldMarshal, .blob]
  | .declSecurity => [.u16, .coded .hasDeclSecurity, .blob]
  | .classLayout => [.u16, .u32, .row .typeDef]
  | .fieldLayout => [.u32, .row .field]
  | .standAloneSig => [.blob]
  | .eventMap => [.row .typeDef, .row .event]
  | .eventPtr => [.row .event]
  | .event => [.u16, .string, .coded .typeDefOrRef]
  | .propertyMap => [.row .typeDef, .row .property]
  | .propertyPtr => [.row .property]
  | .property => [.u16, .string, .blob]
  | .methodSemantics => [.u16, .row .methodDef, .coded .hasSemantics]
  | .methodImpl => [.row .typeDef, .coded .methodDefOrRef, .coded .methodDefOrRef]
  | .moduleRef => [.string]
  | .typeSpec => [.blob]
  | .implMap => [.u16, .coded .memberForwarded, .string, .row .moduleRef]
  | .fieldRva => [.u32, .row .field]
  | .encLog => [.u32, .u32]
  | .encMap => [.u32]
  | .assembly => [.u32, .u16, .u16, .u16, .u16, .u32, .blob, .string, .string]
  | .assemblyProcessor => [.u32]
  | .assemblyOs => [.u32, .u32, .u32]
  | .assemblyRef => [.u16, .u16, .u16, .u16, .u32, .blob, .string, .string, .blob]
  | .assemblyRefProcessor => [.u32, .row .assemblyRef]
  | .assemblyRefOs => [.u32, .u32, .u32, .row .assemblyRef]
  | .file => [.u32, .string, .blob]
  | .exportedType => [.u32, .u32, .string, .string, .coded .implementation]
  | .manifestResource => [.u32, .u32, .string, .coded .implementation]
  | .nestedClass => [.row .typeDef, .row .typeDef]
  | .genericParam => [.u16, .u16, .coded .typeOrMethodDef, .string]
  | .methodSpec => [.coded .methodDefOrRef, .blob]
  | .genericParamConstraint => [.row .genericParam, .coded .typeDefOrRef]
  | .document => [.blob, .guid, .blob, .guid]
  | .methodDebugInformation => [.row .document, .blob]
  | .localScope =>
    [.row .methodDef, .row .importScope, .row .localVariable, .row .localConstant, .u32, .u32]
  | .localVariable => [.u16, .u16, .string]
  | .localConstant => [.string, .blob]
  | .importScope => [.row .importScope, .blob]
  | .stateMachineMethod => [.row .methodDef, .row .methodDef]
  | .customDebugInformation => [.coded .hasCustomDebugInformation, .guid, .blob]

/-- The number of bytes of a row. -/
def rowSize (layout : Layout) (table : Table) : Nat :=
  table.columns.foldr (fun column size => column.size layout + size) 0

end Table

end PortablePdb
