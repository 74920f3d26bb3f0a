import PortablePdb.Metadata.CodedKind

namespace PortablePdb

/-- A row count for each of the 64 table ids; ids that no table has count as well. -/
abbrev RowCounts := Vector UInt32 64

namespace RowCounts

/-- No rows in any table. -/
def none : RowCounts :=
  Vector.replicate 64 0

/-- The number of rows of a table. -/
def ofTable (counts : RowCounts) (table : Table) : UInt32 :=
  counts.get ⟨table.id, table.id_lt⟩

/-- The counts with that of one table replaced. -/
def setTable (counts : RowCounts) (table : Table) (rows : UInt32) : RowCounts :=
  counts.set table.id rows table.id_lt

end RowCounts

/-- What the widths of columns depend on. An index into a table or a heap is wide, four bytes
instead of two, where the table or heap is large. -/
structure Layout where
  rows : RowCounts
  wideStrings : Bool
  wideGuids : Bool
  wideBlobs : Bool
  deriving DecidableEq, Repr

namespace Layout

/-- The layout for row counts and the byte of heap flags. -/
def ofHeapSizes (rows : RowCounts) (heapSizes : UInt8) : Layout where
  rows := rows
  wideStrings := heapSizes &&& 0x01 != 0
  wideGuids := heapSizes &&& 0x02 != 0
  wideBlobs := heapSizes &&& 0x04 != 0

/-- The byte of heap flags. -/
def heapSizes (layout : Layout) : UInt8 :=
  (if layout.wideStrings then 0x01 else 0) ||| (if layout.wideGuids then 0x02 else 0) |||
    (if layout.wideBlobs then 0x04 else 0)

/-- The number of bits that hold any row number of a table, at least one. -/
def rowBits (layout : Layout) (table : Table) : Nat :=
  let rows := (layout.rows.ofTable table).toNat
  if rows = 0 then 1 else rows.log2 + 1

/-- Whether a table has more rows than a narrow index can number. -/
def isLarge (layout : Layout) (table : Table) : Bool :=
  0xFFFF < layout.rows.ofTable table

/-- The number of bytes of a column that refers to rows of a table. -/
def rowIndexBytes (layout : Layout) (table : Table) : Nat :=
  if 16 < layout.rowBits table then 4 else 2

/-- The number of bits of a coded index: those of its largest table, and those of the tag. -/
def codedBits (layout : Layout) (kind : CodedKind) : Nat :=
  (kind.tables.map layout.rowBits).foldl max 0 + kind.tagBits

/-- Whether a coded index of a kind needs more than two bytes. -/
def codedIsLarge (layout : Layout) (kind : CodedKind) : Bool :=
  16 < layout.codedBits kind

/-- The number of bytes of a column of coded indices. -/
def codedIndexBytes (layout : Layout) (kind : CodedKind) : Nat :=
  if layout.codedIsLarge kind then 4 else 2

/-- The number of bytes of an index into the heap of strings. -/
def stringIndexBytes (layout : Layout) : Nat :=
  if layout.wideStrings then 4 else 2

/-- The number of bytes of an index into the heap of identifiers. -/
def guidIndexBytes (layout : Layout) : Nat :=
  if layout.wideGuids then 4 else 2

/-- The number of bytes of an index into the heap of blobs. -/
def blobIndexBytes (layout : Layout) : Nat :=
  if layout.wideBlobs then 4 else 2

end Layout

end PortablePdb
