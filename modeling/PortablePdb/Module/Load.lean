import PortablePdb.Heap.Strings
import PortablePdb.Metadata.MethodBody
import PortablePdb.Metadata.Root
import PortablePdb.Metadata.Rows.TypeSystem
import PortablePdb.Metadata.TablesStream
import PortablePdb.Module.Basic

namespace PortablePdb.Module

/-- The streams of metadata that a module is read from. -/
structure Streams where
  tables : Option TablesStream := none
  strings : Option StringHeap := none

/-- Reads one more stream, if a module has need of it. -/
def Streams.add (metadata : Bytes) (streams : Streams) (header : StreamHeader) :
    Except Error Streams := do
  let stop := header.offset.toNat + header.size.toNat
  if metadata.size < stop then throw .outOfBounds
  let data := metadata.extract header.offset.toNat stop
  if header.name = "#~" || header.name = "#-" then
    return { streams with tables := some (← TablesStream.read data none) }
  else if header.name = "#Strings" then
    return { streams with strings := some (← StringHeap.ofBytes data) }
  else return streams

/-- The methods of a type are those from its own start up to the start of the next type; the last
type has all that are left. -/
def methodRun (types : Array TypeDefRow) (methodCount index : Nat) (type : TypeDefRow) :
    Array Token :=
  let stop := match types[index + 1]? with
    | some next => min next.methodList.toNat (methodCount + 1)
    | none => methodCount + 1
  let start := type.methodList.toNat
  let rids := (List.range' start (stop - start)).filter (· ≠ 0)
  (rids.map fun rid => Token.methodDef rid.toUInt32).toArray

/-- Notes the type that declares some methods, given by their tokens. -/
def declare (type : Token) (owners : Array Token) (methods : Array Token) :
    Except Error (Array Token) :=
  methods.foldlM (fun owners method =>
    let row := method.row.toNat
    if 0 < row && row ≤ owners.size then .ok (owners.setIfInBounds (row - 1) type)
    else .error .fault) owners

/-- The type that encloses the type in a row: the last entry for the row counts. -/
def enclosingOf (nesting : Array NestedClassRow) (rid : UInt32) : Option Token :=
  (nesting.toList.reverse.find? (·.nestedClass == rid)).map fun row =>
    Token.typeDef row.enclosingClass

/-- Types and, for each method, the type that declares it. -/
structure Owners where
  types : Array ModuleType := #[]
  declaring : Array Token

/-- Adds the type in a row. -/
def Owners.add (strings : StringHeap) (typeRows : Array TypeDefRow) (nesting : Array NestedClassRow)
    (owners : Owners) (index : Nat) (row : TypeDefRow) : Except Error Owners := do
  let methods := methodRun typeRows owners.declaring.size index row
  let declaring ← declare (Row.token row) owners.declaring methods
  let namespaceName ← strings.stringAt row.typeNamespace.toNat
  let name ← strings.stringAt row.typeName.toNat
  let type : ModuleType :=
    ⟨Row.token row, namespaceName, name, enclosingOf nesting row.rid, methods⟩
  return { types := owners.types.push type, declaring }

/-- The types of a module, and for each method the type that declares it. -/
def ownersOf (strings : StringHeap) (typeRows : Array TypeDefRow) (nesting : Array NestedClassRow)
    (methodCount : Nat) : Except Error Owners :=
  typeRows.toList.zipIdx.foldlM
    (fun owners (row, index) => owners.add strings typeRows nesting index row)
    { declaring := Array.replicate methodCount ⟨0⟩ }

/-- The code of a method at an address. A method without an address, and one whose body cannot be
read, has none. -/
def codeAt (image : Image) (address : UInt32) : Option MethodCode := do
  if address = 0 then none
  let offset ← (image.addressToOffset address.toNat).toOption
  let body ← (MethodBody.read.evalAt image.data offset).toOption
  return ⟨body.codeSize.toUInt32, body.localSignatureRow⟩

/-- The module in an image. -/
def ofImage (image : Image) : Except Error Module := do
  let directory ← image.clrDirectoryOf
  let clrOffset ← image.addressToOffset directory.address.toNat
  let header ← ClrHeader.read (← image.slice clrOffset directory.size.toNat)
  let metadataOffset ← image.addressToOffset header.metadataAddress.toNat
  let metadata ← image.slice metadataOffset header.metadataSize.toNat
  let root ← Root.read metadata
  let streams ← root.streams.foldlM (Streams.add metadata) {}
  let some tables := streams.tables | reject .noTablesStream
  let some strings := streams.strings | reject .noStringsHeap
  let rowCounts := tables.summary.foldl (fun counts (table, rows) => counts.setTable table rows)
    RowCounts.none
  let name ← match (tables.table? ModuleRow).bind (·.row? 1) with
    | some row => strings.stringAt row.name.toNat
    | none => pure ""
  let methodRows := tables.rows MethodDefRow
  let owners ← ownersOf strings (tables.rows TypeDefRow) (tables.rows NestedClassRow)
    methodRows.size
  let methods ← (methodRows.zip owners.declaring).mapM fun (row, declaringType) => do
    return ModuleMethod.mk (Row.token row) (← strings.stringAt row.name.toNat) declaringType
      (codeAt image row.rva)
  let debugEntries ← image.debugEntries
  let codeView ← image.codeView?
  return {
    name, methods, types := owners.types, rowCounts
    entryPoint := header.entryPoint?.getD ⟨0⟩
    debugEntries, codeView }

/-- The module in the bytes of an image. -/
def ofBytes (data : Bytes) : Except Error Module := do
  ofImage (← Image.ofBytes data)

end PortablePdb.Module
