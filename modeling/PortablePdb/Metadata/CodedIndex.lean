import PortablePdb.Bytes.Index
import PortablePdb.Metadata.Layout

namespace PortablePdb

/-- A reference to a row of a table. -/
structure CodedIndex where
  table : Table
  row : UInt32
  deriving DecidableEq, Repr

namespace CodedIndex

/-- The token of the row. -/
def token (index : CodedIndex) : Token :=
  Token.ofParts index.table index.row

/-- The number that stands for a reference, within 32 bits. The tag of the table is in the low bits,
and the row above it. -/
def encode (kind : CodedKind) (index : CodedIndex) : Except Error UInt32 :=
  match kind.tables.idxOf? index.table with
  | some tag => .ok (index.row.toNat * kind.tagSpan + tag).toUInt32
  | none => reject (.codedTable index.table kind)

/-- The reference that a number stands for; a tag past the kind's tables stands for none. -/
def decode (kind : CodedKind) (value : UInt32) : Except Error CodedIndex :=
  match kind.tables[value.toNat % kind.tagSpan]? with
  | some table => .ok ⟨table, (value.toNat / kind.tagSpan).toUInt32⟩
  | none => .error .outOfBounds

/-- The bytes of a reference in a column. -/
def encodeColumn (layout : Layout) (kind : CodedKind) (index : CodedIndex) :
    Except Error Bytes := do
  Index.encode (layout.codedIsLarge kind) (← encode kind index)

/-- A reference written over the column at a position, and the position after it. -/
def overwrite (layout : Layout) (kind : CodedKind) (index : CodedIndex) (data : Bytes)
    (position : Nat) : Except Error (Bytes × Nat) := do
  Index.overwrite (layout.codedIsLarge kind) (← encode kind index) data position

/-- Reads a reference from a column. -/
def read (layout : Layout) (kind : CodedKind) : Reader CodedIndex := do
  let value ← Index.read (layout.codedIsLarge kind)
  match decode kind value with
  | .ok index => return index
  | .error error => throw error

end CodedIndex

end PortablePdb
