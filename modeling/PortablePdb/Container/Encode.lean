import PortablePdb.Container.ContentId
import PortablePdb.Container.Tables
import PortablePdb.Metadata.Root

namespace PortablePdb

namespace Container

/-- The name of the debug stream, which tells containers of debug data from other metadata. -/
def streamName : String := "#Pdb"

/-- The version of containers. -/
def version : String := "PDB v1.0"

/-- The tables whose rows are in order. -/
def sortedTables : UInt64 :=
  Table.localScope.mask ||| Table.stateMachineMethod.mask ||| Table.customDebugInformation.mask

/-- The tables of a container, in the order of their ids. -/
def debugTables : List Table :=
  Table.all.filter Table.isDebug

/-- The numbers of the ids of type-system tables that have rows. -/
def usedSlots (rows : RowCounts) : List (Fin 64) :=
  (List.finRange 64).filter fun slot => slot.val < 0x30 && rows.get slot ≠ 0

/-- The mask of type-system tables that have rows. -/
def usedMask (rows : RowCounts) : UInt64 :=
  (usedSlots rows).foldl (fun mask slot => mask ||| (1 : UInt64) <<< slot.val.toUInt64) 0

/-- The debug stream: the content id, the entry point, and the row counts of the type system, on
which the widths of columns depend. -/
def encodeHead (id : ContentId) (entryPoint : Token) (rows : RowCounts) : Bytes :=
  (usedSlots rows).foldl (fun out slot => out ++ Bytes.le32 (rows.get slot))
    (id.toBytes ++ Bytes.le32 entryPoint.value ++ Bytes.le64 (usedMask rows))

end Container

namespace DebugTables

/-- The row counts of the type system, with those of the debug tables. -/
def allRows (tables : DebugTables) (typeSystemRows : RowCounts) : RowCounts :=
  Vector.ofFn fun slot =>
    if slot.val < 0x30 then typeSystemRows.get slot
    else ((Table.ofId? slot.val).map tables.rowCount).getD 0

/-- The widths of the columns. -/
def layout (tables : DebugTables) (typeSystemRows : RowCounts) : Layout where
  rows := tables.allRows typeSystemRows
  wideStrings := 0xFFFF < tables.strings.size
  wideGuids := 0xFFFF < tables.guids.size
  wideBlobs := 0xFFFF < tables.blobs.size

/-- The tables that have rows. -/
def present (tables : DebugTables) : List Table :=
  Container.debugTables.filter fun table => tables.rowCount table ≠ 0

/-- The bytes of all rows. -/
def encodeAllRows (tables : DebugTables) (layout : Layout) : Except Error Bytes := do
  return (← encodeRows layout tables.documents.toList) ++
    (← encodeRows layout tables.methods.toList) ++
    (← encodeRows layout tables.localScopes.toList) ++
    (← encodeRows layout tables.localVariables.toList) ++
    (← encodeRows layout tables.localConstants.toList) ++
    (← encodeRows layout tables.importScopes.toList) ++
    (← encodeRows layout tables.stateMachines.toList) ++
    (← encodeRows layout tables.customInfo.toList)

/-- The stream of tables. -/
def encodeStream (tables : DebugTables) (typeSystemRows : RowCounts) : Except Error Bytes := do
  let layout := tables.layout typeSystemRows
  let valid := tables.present.foldl (fun mask table => mask ||| table.mask) (0 : UInt64)
  let head := Bytes.le32 0 ++ #[2, 0, layout.heapSizes, 1] ++ Bytes.le64 valid ++
    Bytes.le64 Container.sortedTables
  let counts := tables.present.foldl
    (fun out table => out ++ Bytes.le32 (tables.rowCount table)) head
  return Bytes.pad4 (counts ++ (← tables.encodeAllRows layout))

/-- The container of tables, for a program that starts at an entry point and whose own tables have
the given rows. -/
def encode (tables : DebugTables) (id : ContentId) (entryPoint : Token)
    (typeSystemRows : RowCounts) : Except Error Bytes := do
  let stream ← tables.encodeStream typeSystemRows
  Root.encode Container.version
    [(Container.streamName, Container.encodeHead id entryPoint typeSystemRows), ("#~", stream),
      ("#Strings", tables.strings), ("#US", Bytes.zeros 4), ("#GUID", tables.guids),
      ("#Blob", tables.blobs)]

end DebugTables

namespace Container

/-- Replaces the content id of a container. -/
def withId (data : Bytes) (id : ContentId) : Except Error Bytes := do
  let root ← Root.read data
  match root.stream? streamName with
  | some stream => Bytes.overwrite data stream.offset.toNat id.toBytes
  | none => reject .containerWithoutPdb

end Container

end PortablePdb
