import PortablePdb.Metadata.CodedIndex
import PortablePdb.Metadata.Column

namespace PortablePdb

/-- A type of records that are the rows of a table. -/
class Row (ρ : Type) where
  /-- The table whose rows these are. -/
  table : Table
  /-- The number of a row in its table, counted from one. -/
  rid : ρ → UInt32
  /-- The number of bytes of a row. -/
  size : Layout → Nat
  /-- Reads the columns of the row with a number. -/
  read : Layout → (rid : UInt32) → Reader ρ

/-- A type of rows that can be written. -/
class WritableRow (ρ : Type) extends Row ρ where
  /-- The bytes of a row. -/
  encode : Layout → ρ → Except Error Bytes

/-- The token of a row. -/
def Row.token {ρ : Type} [Row ρ] (row : ρ) : Token :=
  Token.ofParts (Row.table ρ) (Row.rid row)

/-- The bytes of rows, one after the other. -/
def encodeRows {ρ : Type} [WritableRow ρ] (layout : Layout) (rows : List ρ) : Except Error Bytes :=
  rows.foldlM (fun out row => return out ++ (← WritableRow.encode layout row)) #[]

/-- The bytes of columns, one after the other. -/
def encodeColumns : List (Except Error Bytes) → Except Error Bytes
  | [] => return #[]
  | column :: columns => return (← column) ++ (← encodeColumns columns)

/-- Writes bytes over the data at a position, and moves behind them. -/
def writeBytes (form : Bytes) : EStateM Error (Bytes × Nat) Unit := do
  let (data, position) ← get
  match data.overwrite position form with
  | .ok written => set (written, position + form.size)
  | .error error => throw error

/-- Writes columns over the data from a position on, one after the other. The first one that cannot
be written ends this, and leaves the columns before it in the data. -/
def writeColumns : List (Except Error Bytes) → EStateM Error (Bytes × Nat) Unit
  | [] => return
  | .error error :: _ => throw error
  | .ok form :: columns => do
    writeBytes form
    writeColumns columns

/-- A type of rows that can be written in place. -/
class InPlaceRow (ρ : Type) [WritableRow ρ] where
  /-- The columns of a row in order, each with its bytes if it has room for its value. -/
  columns : Layout → ρ → List (Except Error Bytes)
  encode_eq : ∀ layout row, WritableRow.encode layout row = encodeColumns (columns layout row)

/-- Writes a row over the data from a position on. -/
def writeRow {ρ : Type} [WritableRow ρ] [InPlaceRow ρ] (layout : Layout) (row : ρ) :
    EStateM Error (Bytes × Nat) Unit :=
  writeColumns (InPlaceRow.columns layout row)

/-- A table in the bytes of a stream: a number of rows from a position on. -/
structure RowTable (ρ : Type) where
  data : Bytes
  start : Nat
  count : UInt32
  layout : Layout

namespace RowTable

variable {ρ : Type} [Row ρ]

/-- The number of bytes of a row. -/
def rowSize (table : RowTable ρ) : Nat :=
  Row.size ρ table.layout

/-- The number of bytes of the table. -/
def size (table : RowTable ρ) : Nat :=
  table.count.toNat * table.rowSize

/-- A table whose rows all lie within the data. -/
def ofData (data : Bytes) (start : Nat) (count : UInt32) (layout : Layout) :
    Except Error (RowTable ρ) :=
  let table : RowTable ρ := ⟨data, start, count, layout⟩
  if data.size - start < table.size then .error .outOfBounds else .ok table

/-- The row with a number, if the table has it and its columns can be read. -/
def row? (table : RowTable ρ) (rid : UInt32) : Option ρ :=
  if rid = 0 || table.count < rid then none
  else
    ((Row.read table.layout rid).evalAt table.data
      (table.start + (rid.toNat - 1) * table.rowSize)).toOption

/-- Adds the rows from a position on, up to one whose columns cannot be read. -/
def addRows (table : RowTable ρ) : (left rid : Nat) → (position : Nat) → Array ρ → Array ρ
  | 0, _, _, rows => rows
  | left + 1, rid, position, rows =>
    match (Row.read table.layout rid.toUInt32).runAt table.data position with
    | .ok row next => table.addRows left (rid + 1) next (rows.push row)
    | .error _ _ => rows

/-- The rows in order. A row whose columns cannot be read ends them. -/
def rows (table : RowTable ρ) : Array ρ :=
  table.addRows table.count.toNat 1 table.start #[]

end RowTable

end PortablePdb
