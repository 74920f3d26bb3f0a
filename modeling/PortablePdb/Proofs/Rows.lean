import PortablePdb.Metadata.Rows.Debug
import PortablePdb.Proofs.Indices

namespace PortablePdb

/-- Rows whose bytes hold all their columns. -/
class StoredRow (ρ : Type) extends WritableRow ρ where
  /-- A row under another number. -/
  numbered : (rid : UInt32) → ρ → ρ
  /-- Whether the columns of a row have room for what it refers to. -/
  IsKept : ρ → Prop
  four_le_size : ∀ layout, 4 ≤ Row.size ρ layout
  size_eq_rowSize : ∀ layout, Row.size ρ layout = (Row.table ρ).rowSize layout
  size_encode : ∀ {layout : Layout} {row : ρ} {form : Bytes},
    WritableRow.encode layout row = .ok form → form.size = Row.size ρ layout
  takes_encode : ∀ {layout : Layout} {row : ρ} {form : Bytes}, IsKept row →
    WritableRow.encode layout row = .ok form →
      ∀ rid, (Row.read layout rid).Takes form (numbered rid row)

namespace Column

variable {α : Type} {layout : Layout} {kept : Prop}

theorem two_le_size (layout : Layout) (column : Column) : 2 ≤ column.size layout := by
  cases column with
  | u16 => exact Nat.le_refl 2
  | u32 => exact (by decide : 2 ≤ 4)
  | string => exact Index.two_le_width _
  | guid => exact Index.two_le_width _
  | blob => exact Index.two_le_width _
  | row table =>
    rw [size, Layout.rowIndexBytes_eq]
    exact Index.two_le_width _
  | coded kind => exact Index.two_le_width _

/-- The form of a value in a column has the size of the column. If the column has room for what the
value refers to, the value is read back from it. -/
structure Stores (layout : Layout) (kept : Prop) (column : Column) (form? : Except Error Bytes)
    (reader : Reader α) (value : α) : Prop where
  size_eq : ∀ form, form? = .ok form → form.size = column.size layout
  takes : kept → ∀ form, form? = .ok form → reader.Takes form value

theorem stores_u16 (value : UInt16) :
    Stores layout kept .u16 (pure (Bytes.le16 value)) Reader.le16 value where
  size_eq := by
    rintro _ ⟨⟩
    exact Bytes.size_ofNatLE 2 _
  takes := by
    rintro _ _ ⟨⟩
    exact Reader.takes_le16 value

theorem stores_u32 (value : UInt32) :
    Stores layout kept .u32 (pure (Bytes.le32 value)) Reader.le32 value where
  size_eq := by
    rintro _ ⟨⟩
    exact Bytes.size_ofNatLE 4 _
  takes := by
    rintro _ _ ⟨⟩
    exact Reader.takes_le32 value

theorem stores_index (column : Column) {wide : Bool} (hsize : column.size layout = Index.width wide)
    (value : UInt32) :
    Stores layout kept column (Index.encode wide value) (Index.read wide) value where
  size_eq _ hform := (Index.size_encode hform).trans hsize.symm
  takes _ _ hform := Index.takes_encode hform

theorem stores_string (value : UInt32) : Stores layout kept .string
    (Index.encode layout.wideStrings value) (Index.read layout.wideStrings) value :=
  stores_index .string rfl value

theorem stores_guid (value : UInt32) : Stores layout kept .guid
    (Index.encode layout.wideGuids value) (Index.read layout.wideGuids) value :=
  stores_index .guid rfl value

theorem stores_blob (value : UInt32) : Stores layout kept .blob
    (Index.encode layout.wideBlobs value) (Index.read layout.wideBlobs) value :=
  stores_index .blob rfl value

theorem stores_row (table : Table) (value : UInt32) : Stores layout kept (.row table)
    (Index.encode (layout.isLarge table) value) (Index.read (layout.isLarge table)) value :=
  stores_index (.row table) (Layout.rowIndexBytes_eq layout table) value

/-- A reference is kept if its row fits a token. -/
theorem stores_coded (kind : CodedKind) (index : CodedIndex) :
    Stores layout (index.row.toNat < 0x1000000) (.coded kind) (index.encodeColumn layout kind)
      (CodedIndex.read layout kind) index where
  size_eq _ hform := CodedIndex.size_encodeColumn hform
  takes hrow _ hform := CodedIndex.takes_encodeColumn hrow hform

end Column

/-- The columns of a row as they are written and read, one for each column of the schema. -/
inductive StoresColumns {ρ : Type} (layout : Layout) (kept : Prop) :
    List Column → List (Except Error Bytes) → Reader ρ → ρ → Prop
  | nil (row : ρ) : StoresColumns layout kept [] [] (pure row) row
  | cons {α : Type} {column : Column} {columns : List Column} {form? : Except Error Bytes}
      {forms : List (Except Error Bytes)} {reader : Reader α} {value : α} {next : α → Reader ρ}
      {row : ρ} (hcolumn : column.Stores layout kept form? reader value)
      (hrest : StoresColumns layout kept columns forms (next value) row) :
      StoresColumns layout kept (column :: columns) (form? :: forms) (reader >>= next) row

namespace StoresColumns

variable {ρ : Type} {layout : Layout} {kept : Prop} {columns : List Column}
  {forms : List (Except Error Bytes)} {reader : Reader ρ} {row : ρ} {form : Bytes}

theorem size_eq (hstores : StoresColumns layout kept columns forms reader row)
    (hform : encodeColumns forms = .ok form) :
    form.size = columns.foldr (fun column size => column.size layout + size) 0 := by
  induction hstores generalizing form with
  | nil row =>
    cases hform
    rfl
  | cons hcolumn hrest ih =>
    obtain ⟨first, hfirst, hform⟩ := bind_eq_ok_iff.mp hform
    obtain ⟨rest, hrest, hform⟩ := bind_eq_ok_iff.mp hform
    rw [← pure_eq_ok_iff.mp hform, Array.size_append, hcolumn.size_eq first hfirst, ih hrest]
    rfl

theorem takes (hstores : StoresColumns layout kept columns forms reader row) (hkept : kept)
    (hform : encodeColumns forms = .ok form) : reader.Takes form row := by
  induction hstores generalizing form with
  | nil row =>
    cases hform
    exact Reader.takes_pure row
  | cons hcolumn hrest ih =>
    obtain ⟨first, hfirst, hform⟩ := bind_eq_ok_iff.mp hform
    obtain ⟨rest, hrest, hform⟩ := bind_eq_ok_iff.mp hform
    rw [← pure_eq_ok_iff.mp hform]
    exact (hcolumn.takes hkept first hfirst).bind (ih hrest)

end StoresColumns

theorem Table.two_mul_length_le_rowSize (layout : Layout) (table : Table) :
    2 * table.columns.length ≤ table.rowSize layout := by
  unfold rowSize
  induction table.columns with
  | nil => exact Nat.le_refl 0
  | cons column columns ih =>
    have hcolumn := column.two_le_size layout
    rw [List.length_cons, List.foldr_cons]
    omega

/-- Rows hold their columns if each column of the schema is one that is written and read. The schema
has at least two columns, and a row is as long as they are. -/
@[reducible] def StoredRow.ofColumns {ρ : Type} [WritableRow ρ] [InPlaceRow ρ]
    (numbered : UInt32 → ρ → ρ) (IsKept : ρ → Prop)
    (hcolumns : ∀ layout row rid, StoresColumns layout (IsKept row) (Row.table ρ).columns
      (InPlaceRow.columns layout row) (Row.read layout rid) (numbered rid row))
    (hlength : 2 ≤ (Row.table ρ).columns.length := by decide)
    (hsize : ∀ layout, Row.size ρ layout = (Row.table ρ).rowSize layout := by
      intro layout
      simp only [Row.size, Row.table, Table.rowSize, Table.columns, List.foldr, Column.size]
      omega) : StoredRow ρ where
  numbered := numbered
  IsKept := IsKept
  four_le_size layout := by
    have hle := (Row.table ρ).two_mul_length_le_rowSize layout
    rw [hsize]
    omega
  size_eq_rowSize := hsize
  size_encode {layout row form} hform := by
    rw [InPlaceRow.encode_eq] at hform
    exact ((hcolumns layout row 0).size_eq hform).trans (hsize layout).symm
  takes_encode {layout row form} hkept hform rid := by
    rw [InPlaceRow.encode_eq] at hform
    exact (hcolumns layout row rid).takes hkept hform

section Instances

open Column StoresColumns

instance : StoredRow DocumentRow :=
  .ofColumns (fun rid row => { row with rid }) (fun _ => True)
    fun _ _ _ => .cons (stores_blob _) (.cons (stores_guid _) (.cons (stores_blob _)
      (.cons (stores_guid _) (by exact .nil _))))

instance : StoredRow MethodDebugRow :=
  .ofColumns (fun rid row => { row with rid }) (fun _ => True)
    fun _ _ _ => .cons (stores_row .document _) (.cons (stores_blob _) (by exact .nil _))

instance : StoredRow LocalScopeRow :=
  .ofColumns (fun rid row => { row with rid }) (fun _ => True)
    fun _ _ _ => .cons (stores_row .methodDef _) (.cons (stores_row .importScope _)
      (.cons (stores_row .localVariable _) (.cons (stores_row .localConstant _)
        (.cons (stores_u32 _) (.cons (stores_u32 _) (by exact .nil _))))))

instance : StoredRow LocalVariableRow :=
  .ofColumns (fun rid row => { row with rid }) (fun _ => True)
    fun _ _ _ => .cons (stores_u16 _) (.cons (stores_u16 _)
      (.cons (stores_string _) (by exact .nil _)))

instance : StoredRow LocalConstantRow :=
  .ofColumns (fun rid row => { row with rid }) (fun _ => True)
    fun _ _ _ => .cons (stores_string _) (.cons (stores_blob _) (by exact .nil _))

instance : StoredRow ImportScopeRow :=
  .ofColumns (fun rid row => { row with rid }) (fun _ => True)
    fun _ _ _ => .cons (stores_row .importScope _) (.cons (stores_blob _) (by exact .nil _))

instance : StoredRow StateMachineRow :=
  .ofColumns (fun rid row => { row with rid }) (fun _ => True)
    fun _ _ _ => .cons (stores_row .methodDef _) (.cons (stores_row .methodDef _) (by exact .nil _))

/-- A parent is kept if its row fits a token. -/
instance : StoredRow CustomInfoRow :=
  .ofColumns (fun rid row => { row with rid }) (fun row => row.parent.row.toNat < 0x1000000)
    fun _ row _ => .cons (stores_coded .hasCustomDebugInformation row.parent)
      (.cons (stores_guid _) (.cons (stores_blob _) (by exact .nil _)))

end Instances

section Tables

variable {ρ : Type} [StoredRow ρ] {layout : Layout}

/-- Rows under the numbers of their places. -/
def numberedRows (rows : Array ρ) : Array ρ :=
  rows.mapIdx fun i row => StoredRow.numbered (i + 1).toUInt32 row

private theorem foldlM_encode (rows : List ρ) (out : Bytes) :
    rows.foldlM (fun out row => return out ++ (← WritableRow.encode layout row)) out =
      (return out ++ (← encodeRows layout rows) : Except Error Bytes) := by
  induction rows generalizing out with
  | nil => simp [encodeRows, List.foldlM]
  | cons row rows ih =>
    simp only [encodeRows, List.foldlM_cons, bind_assoc, pure_bind]
    cases WritableRow.encode layout row with
    | error error => rfl
    | ok form =>
      simp only [bind, Except.bind, pure, Except.pure] at ih ⊢
      rw [ih (out ++ form), ih (#[] ++ form)]
      cases encodeRows layout rows with
      | error error => rfl
      | ok rest => simp [Array.append_assoc]

/-- The bytes of rows are those of the first row, followed by those of the others. -/
theorem encodeRows_cons {row : ρ} {rows : List ρ} {form : Bytes}
    (hform : encodeRows layout (row :: rows) = .ok form) :
    ∃ first rest, WritableRow.encode layout row = .ok first ∧
      encodeRows layout rows = .ok rest ∧ form = first ++ rest := by
  simp only [encodeRows, List.foldlM_cons, bind_assoc, pure_bind] at hform
  obtain ⟨first, hfirst, hform⟩ := bind_eq_ok_iff.mp hform
  rw [foldlM_encode] at hform
  obtain ⟨rest, hrest, hform⟩ := bind_eq_ok_iff.mp hform
  exact ⟨first, rest, hfirst, hrest, by simpa using (pure_eq_ok_iff.mp hform).symm⟩

theorem size_encodeRows {rows : List ρ} {form : Bytes} (hform : encodeRows layout rows = .ok form) :
    form.size = rows.length * Row.size ρ layout := by
  induction rows generalizing form with
  | nil =>
    cases hform
    simp
  | cons row rows ih =>
    obtain ⟨first, rest, hfirst, hrest, rfl⟩ := encodeRows_cons hform
    rw [Array.size_append, StoredRow.size_encode hfirst, ih hrest, List.length_cons, Nat.succ_mul,
      Nat.add_comm]

namespace RowTable

/-- Rows that stand one after the other are added in order, under numbers that count on. -/
theorem addRows_eq (table : RowTable ρ) {rows : List ρ} {form : Bytes} (rid : Nat) {position : Nat}
    (before : Array ρ) (hform : encodeRows table.layout rows = .ok form)
    (hkept : ∀ row ∈ rows, StoredRow.IsKept row) (hat : table.data.HasAt position form) :
    table.addRows rows.length rid position before =
      before ++ (rows.mapIdx fun i row => StoredRow.numbered (rid + i).toUInt32 row).toArray := by
  induction rows generalizing form rid position before with
  | nil => simp [addRows]
  | cons row rows ih =>
    obtain ⟨first, rest, hfirst, hrest, rfl⟩ := encodeRows_cons hform
    have hread := StoredRow.takes_encode (hkept row List.mem_cons_self) hfirst rid.toUInt32 _ _
      hat.left
    rw [List.length_cons, addRows, hread]
    simp only
    rw [ih (rid + 1) _ hrest (fun other hother => hkept other (List.mem_cons_of_mem row hother))
      hat.right, List.mapIdx_cons]
    simp [Nat.add_assoc, Nat.add_comm 1]

theorem rows_eq {data : Bytes} {rows : Array ρ} {form : Bytes} {start : Nat} {count : UInt32}
    (hform : encodeRows layout rows.toList = .ok form) (hcount : count.toNat = rows.size)
    (hkept : ∀ row ∈ rows, StoredRow.IsKept row) (hat : data.HasAt start form) :
    (⟨data, start, count, layout⟩ : RowTable ρ).rows = numberedRows rows := by
  have hadd := addRows_eq ⟨data, start, count, layout⟩ 1 #[] hform
    (by simpa using hkept) hat
  rw [RowTable.rows, hcount, ← Array.length_toList, hadd, numberedRows, Array.empty_append,
    ← Array.toList_inj, Array.toList_mapIdx]
  simp only [Nat.add_comm 1]

theorem ofData_eq {data : Bytes} {rows : Array ρ} {form : Bytes} {start : Nat} {count : UInt32}
    (hform : encodeRows layout rows.toList = .ok form) (hcount : count.toNat = rows.size)
    (hat : data.HasAt start form) :
    (ofData data start count layout : Except Error (RowTable ρ)) =
      .ok ⟨data, start, count, layout⟩ := by
  have hsize := size_encodeRows hform
  have hle := hat.size_le
  simp only [ofData, RowTable.size, RowTable.rowSize, hcount]
  rw [Array.length_toList] at hsize
  rw [if_neg (by omega)]

end RowTable

end Tables

end PortablePdb
