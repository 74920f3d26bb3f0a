import PortablePdb.Proofs.CodedIndices
import PortablePdb.Proofs.Fitting
import PortablePdb.Proofs.Overwriting

namespace PortablePdb

/-- What is written in a number of bytes is kept there, wherever data have room for it: the value is
read back from where it was written, the next position is that behind the bytes both times, and no
other bytes change. -/
def Reader.Keeps {α : Type} (reader : Reader α) (write : Bytes → Nat → Except Error (Bytes × Nat))
    (value : α) (width : Nat) : Prop :=
  ∀ data position, position + width ≤ data.size →
    ∃ written, write data position = .ok (written, position + width) ∧
      reader.runAt written position = .ok value (position + width) ∧
      data.SameOutside position (position + width) written

/-- A form that a reader takes is kept. -/
theorem Reader.Takes.keeps {α : Type} {reader : Reader α} {form : Bytes} {value : α}
    {write : Bytes → Nat → Except Error (Bytes × Nat)} (hreader : reader.Takes form value)
    (hwrite : ∀ data position, write data position = do
      return (← data.overwrite position form, position + form.size)) :
    reader.Keeps write value form.size := by
  intro data position hroom
  obtain ⟨written, hwritten, hform, hsame⟩ := Bytes.exists_overwrite hroom
  refine ⟨written, ?_, hreader written position hform, hsame⟩
  rw [hwrite]
  exact bind_eq_ok_iff.mpr ⟨written, hwritten, rfl⟩

theorem Index.overwrite_eq {wide : Bool} {value : UInt32} {form : Bytes}
    (hform : encode wide value = .ok form) (data : Bytes) (position : Nat) :
    overwrite wide value data position = do
      return (← data.overwrite position form, position + form.size) := by
  rw [overwrite, hform, ok_bind]

/-- A number that fits a column is kept by it. -/
theorem Index.Fits.keeps {wide : Bool} {value : UInt32} (hfits : Fits wide value) :
    (read wide).Keeps (overwrite wide value) value (width wide) := by
  obtain ⟨form, hform⟩ := hfits.exists_encode
  rw [← size_encode hform]
  exact (takes_encode hform).keeps (overwrite_eq hform)

namespace CodedIndex

variable {index : CodedIndex} {kind : CodedKind} {layout : Layout}

theorem overwrite_eq {form : Bytes} (hform : index.encodeColumn layout kind = .ok form)
    (data : Bytes) (position : Nat) :
    index.overwrite layout kind data position = do
      return (← data.overwrite position form, position + form.size) := by
  obtain ⟨value, hvalue, hform⟩ := bind_eq_ok_iff.mp hform
  rw [overwrite, hvalue, ok_bind, Index.overwrite_eq hform]

/-- A reference to a row that there is, and that fits a token, is kept by columns of its kind. -/
theorem keeps (htable : index.table ∈ kind.tables)
    (hrow : index.row ≤ layout.rows.ofTable index.table) (htoken : index.row.toNat < 0x1000000) :
    (read layout kind).Keeps (index.overwrite layout kind) index (layout.codedIndexBytes kind) := by
  obtain ⟨value, hvalue⟩ := exists_encode htable
  obtain ⟨form, hform⟩ := exists_encodeColumn hvalue hrow
  rw [← size_encodeColumn hform]
  exact (takes_encodeColumn htoken hform).keeps (overwrite_eq hform)

end CodedIndex

namespace Layout

/-- In every layout with row counts that fit tokens, columns keep the rows that there are: columns
of references to a table, which have four bytes exactly if the table is large, and columns of coded
indices for each table of their kind. -/
theorem columns_keep_rows (layout : Layout)
    (hrows : ∀ table, (layout.rows.ofTable table).toNat < 0x1000000) :
    (∀ table row, row ≤ layout.rows.ofTable table →
      (Index.read (layout.isLarge table)).Keeps (Index.overwrite (layout.isLarge table) row) row
        (layout.rowIndexBytes table)) ∧
    (∀ table, layout.isLarge table = true ↔ layout.rowIndexBytes table = 4) ∧
    ∀ kind (index : CodedIndex), index.table ∈ kind.tables →
      index.row ≤ layout.rows.ofTable index.table →
      (CodedIndex.read layout kind).Keeps (index.overwrite layout kind) index
        (layout.codedIndexBytes kind) := by
  refine ⟨fun table row hrow => ?_, fun table => ?_, fun kind index htable hrow => ?_⟩
  · rw [rowIndexBytes_eq]
    exact (fits_row hrow).keeps
  · rw [rowIndexBytes_eq]
    cases layout.isLarge table <;> decide
  · have hle := UInt32.le_iff_toNat_le.mp hrow
    exact CodedIndex.keeps htable hrow (hle.trans_lt (hrows index.table))

/-- A layout with the most rows that narrow columns take: as many documents as five bits for a tag
leave room for, and as many methods as two bytes can number. -/
def fullNarrowColumns : Layout :=
  .ofHeapSizes ((RowCounts.none.setTable .document 2047).setTable .methodDebugInformation 0xFFFF) 0

/-- The last rows of both tables are kept in two bytes. -/
theorem columns_keep_rows_lastRows :
    (∃ written, Index.overwrite (fullNarrowColumns.isLarge .methodDebugInformation) 0xFFFF
        (Bytes.zeros 3) 1 = .ok (written, 3) ∧
      (Index.read (fullNarrowColumns.isLarge .methodDebugInformation)).runAt written 1 =
        .ok 0xFFFF 3) ∧
    ∃ written, CodedIndex.overwrite fullNarrowColumns .hasCustomDebugInformation ⟨.document, 2047⟩
        (Bytes.zeros 3) 1 = .ok (written, 3) ∧
      (CodedIndex.read fullNarrowColumns .hasCustomDebugInformation).runAt written 1 =
        .ok ⟨.document, 2047⟩ 3 := by
  obtain ⟨hindices, _, hcoded⟩ := columns_keep_rows fullNarrowColumns (by
    intro table
    cases table <;> decide)
  obtain ⟨first, hfirst, hfirstRead, _⟩ :=
    hindices .methodDebugInformation 0xFFFF (by decide) (Bytes.zeros 3) 1 (by decide)
  obtain ⟨second, hsecond, hsecondRead, _⟩ :=
    hcoded .hasCustomDebugInformation ⟨.document, 2047⟩ (by decide) (by decide) (Bytes.zeros 3) 1
      (by decide)
  exact ⟨⟨first, hfirst, hfirstRead⟩, second, hsecond, hsecondRead⟩

end Layout

end PortablePdb
