import PortablePdb.Metadata.Row

namespace PortablePdb

/-- Where the rows of a table start, and how many there are. -/
structure TableLocation where
  table : Table
  start : Nat
  rows : UInt32
  deriving DecidableEq, Repr

/-- The stream of tables. Its header tells which tables are present and how many rows each of them
has, and the rows follow in the order of table ids. -/
structure TablesStream where
  majorVersion : UInt8
  minorVersion : UInt8
  heapSizes : UInt8
  /-- The mask of the tables that are present. -/
  valid : UInt64
  /-- The mask of the tables that are sorted. -/
  sorted : UInt64
  layout : Layout
  data : Bytes
  locations : List TableLocation

namespace TablesStream

/-- Reads the row counts of the tables in a mask. -/
def readCounts (isPdb : Bool) (valid : UInt64) : (slots : List Nat) → Reader (List (Table × UInt32))
  | [] => return []
  | slot :: slots => do
    if valid.toNat.testBit slot then
      match Table.ofId? slot with
      | none => reject (.unknownTable slot)
      | some table =>
        if isPdb && !table.isDebug then reject (.typeSystemTable table)
        let rows ← Reader.le32
        return (table, rows) :: (← readCounts isPdb valid slots)
    else readCounts isPdb valid slots

/-- The counts of type-system tables, without those of debug tables. -/
def typeSystemCounts (counts : RowCounts) : RowCounts :=
  Vector.ofFn fun slot => if slot.val < 0x30 then counts[slot] else 0

/-- Where tables stand that follow each other from a position on, if they all end by `stop`. -/
def locate (layout : Layout) (stop : Nat) : (position : Nat) → List (Table × UInt32) →
    Except Error (List TableLocation)
  | _, [] => .ok []
  | position, (table, rows) :: rest => do
    let next := position + rows.toNat * table.rowSize layout
    if stop < next then throw .outOfBounds
    return ⟨table, position, rows⟩ :: (← locate layout stop next rest)

/-- Reads a stream; `typeSystemRows` are the row counts that a debug container has from elsewhere.
-/
def read (data : Bytes) (typeSystemRows : Option RowCounts) : Except Error TablesStream := do
  if data.size < 24 then throw .outOfBounds
  let majorVersion ← Reader.u8.evalAt data 4
  let minorVersion ← Reader.u8.evalAt data 5
  let heapSizes ← Reader.u8.evalAt data 6
  let valid ← Reader.le64.evalAt data 8
  let sorted ← Reader.le64.evalAt data 16
  if valid = 0 && typeSystemRows.isNone then reject .noTables
  let counts ← (readCounts typeSystemRows.isSome valid (List.range 64)).evalAt data 24
  let extra := if heapSizes &&& 0x40 != 0 then 4 else 0
  let base := (typeSystemRows.map typeSystemCounts).getD RowCounts.none
  let rows := counts.foldl (fun rows (table, count) => rows.setTable table count) base
  let layout := Layout.ofHeapSizes rows heapSizes
  let locations ← locate layout data.size (24 + 4 * counts.length + extra) counts
  return { majorVersion, minorVersion, heapSizes, valid, sorted, layout, data, locations }

/-- Whether the mask of present tables has a table. -/
def hasTable (stream : TablesStream) (table : Table) : Bool :=
  stream.valid.toNat.testBit table.id

/-- The number of bits in the mask of present tables. -/
def tableCount (stream : TablesStream) : Nat :=
  (List.range 64).countP stream.valid.toNat.testBit

/-- Where a table stands, if it is present. -/
def location? (stream : TablesStream) (table : Table) : Option TableLocation :=
  stream.locations.find? (·.table == table)

/-- The rows of a table, if it is present. -/
def table? (ρ : Type) [Row ρ] (stream : TablesStream) : Option (RowTable ρ) := do
  let location ← stream.location? (Row.table ρ)
  (RowTable.ofData stream.data location.start location.rows stream.layout).toOption

/-- The rows of a table; a table that is not present has none. -/
def rows (ρ : Type) [Row ρ] (stream : TablesStream) : Array ρ :=
  ((stream.table? ρ).map RowTable.rows).getD #[]

/-- The number of rows that the stream declares for a table. -/
def rowCount (stream : TablesStream) (table : Table) : UInt32 :=
  ((stream.location? table).map TableLocation.rows).getD 0

/-- Each present table with its number of rows. -/
def summary (stream : TablesStream) : List (Table × UInt32) :=
  stream.locations.map fun location => (location.table, location.rows)

end TablesStream

end PortablePdb
