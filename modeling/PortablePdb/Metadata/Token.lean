import PortablePdb.Metadata.Table
import PortablePdb.Text.Hex

namespace PortablePdb

/-- A reference to a row of a metadata table, in 32 bits: the high byte is the id of the table, and
the low 24 bits are the row, counted from one. -/
structure Token where
  value : UInt32
  deriving DecidableEq, Repr, Inhabited, Hashable, Ord

namespace Token

/-- The token of a row; bits of the row above the low 24 are dropped. -/
def ofParts (table : Table) (row : UInt32) : Token :=
  ⟨(table.id * 0x1000000 + row.toNat % 0x1000000).toUInt32⟩

/-- The token of a method definition. -/
def methodDef (row : UInt32) : Token :=
  ofParts .methodDef row

/-- The token of a type definition. -/
def typeDef (row : UInt32) : Token :=
  ofParts .typeDef row

/-- The high byte, which is the id of a table if a table has that id. -/
def tableId (token : Token) : Nat :=
  token.value.toNat / 0x1000000

/-- The row in the low 24 bits. -/
def row (token : Token) : UInt32 :=
  token.value % 0x1000000

/-- The null token refers to nothing. -/
def isNull (token : Token) : Bool :=
  token.value == 0

/-- A token belongs to a table if it names a row of it; row zero is no row. -/
def isTable (token : Token) (table : Table) : Bool :=
  token.tableId == table.id && token.row != 0

/-- The usual text of a token: `0x` and eight hexadecimal digits. -/
def toText (token : Token) : String :=
  "0x" ++ Text.Hex.padded 8 token.value.toNat

instance : ToString Token := ⟨toText⟩

/-- The text of a token with its parts spelled out. -/
def describe (token : Token) : String :=
  s!"Token({token.toText}, table: 0x{Text.Hex.padded 2 token.tableId}, row: {token.row})"

theorem tableId_ofParts (table : Table) (row : UInt32) :
    (ofParts table row).tableId = table.id := by
  have hid := table.id_lt
  simp only [tableId, ofParts, Nat.toUInt32_eq, UInt32.toNat_ofNat']
  omega

theorem toNat_row_ofParts (table : Table) (row : UInt32) :
    (ofParts table row).row.toNat = row.toNat % 0x1000000 := by
  have hid := table.id_lt
  simp only [Token.row, ofParts, Nat.toUInt32_eq, UInt32.toNat_mod, UInt32.toNat_ofNat',
    UInt32.reduceToNat]
  omega

theorem row_ofParts {table : Table} {row : UInt32} (hrow : row.toNat < 0x1000000) :
    (ofParts table row).row = row := by
  apply UInt32.toNat_inj.mp
  rw [toNat_row_ofParts, Nat.mod_eq_of_lt hrow]

theorem toNat_row_ofParts_toUInt32 {table : Table} {row : Nat} (hrow : row < 0x1000000) :
    (ofParts table row.toUInt32).row.toNat = row := by
  have hlt : row < UInt32.size := Nat.lt_trans hrow (by decide)
  rw [toNat_row_ofParts, Nat.toUInt32_eq, UInt32.toNat_ofNat_of_lt' hlt, Nat.mod_eq_of_lt hrow]

end Token

end PortablePdb
