import PortablePdb.Metadata.Column
import PortablePdb.Proofs.Checked.Reader
import PortablePdb.Proofs.Indices

namespace PortablePdb.Checked

/-- The number of bits of a word above its highest one. -/
def leadingZeros (width : Word) (value : Nat) : Nat :=
  if value = 0 then width.bits else width.bits - 1 - value.log2

/-- The number of bits up to the highest one of a word. -/
def bitLength (width : Word) (value : Nat) : Except Error Nat :=
  sub width.bits (leadingZeros width value)

theorem bitLength_eq {width : Word} {value : Nat} (hvalue : value ≠ 0) (hlt : value < width.limit) :
    bitLength width value = .ok (value.log2 + 1) := by
  have hlog : value.log2 < width.bits := by
    rw [Nat.log2_lt hvalue]
    cases width <;> exact hlt
  rw [bitLength, leadingZeros, if_neg hvalue, sub_eq (by omega)]
  congr 1
  omega

/-- The token of a row. -/
def token (table : Table) (row : UInt32) : Except Error Token := do
  let high ← shiftLeft .word table.id 24
  return ⟨(high ||| row.toNat &&& 0xFFFFFF).toUInt32⟩

theorem token_eq (table : Table) (row : UInt32) :
    token table row = .ok (Token.ofParts table row) := by
  have hid := table.id_lt
  rw [token, shiftLeft_eq (by decide), ok_bind, show 0xFFFFFF = 2 ^ 24 - 1 from rfl,
    Nat.and_two_pow_sub_one_eq_mod,
    Nat.mod_eq_of_lt (by simp only [Nat.shiftLeft_eq, Word.limit]; omega),
    ← Nat.shiftLeft_add_eq_or_of_lt (by omega), Nat.shiftLeft_eq]
  rfl

/-- The number of low bits that hold the tag. -/
def tagBits (kind : CodedKind) : Except Error Nat := do
  bitLength .long (← sub kind.tables.length 1)

theorem tagBits_eq (kind : CodedKind) : tagBits kind = .ok kind.tagBits := by
  cases kind <;> rfl

/-- The place of a kind among all kinds. -/
def number : CodedKind → Nat
  | .typeDefOrRef => 0
  | .hasConstant => 1
  | .hasCustomAttribute => 2
  | .hasFieldMarshal => 3
  | .hasDeclSecurity => 4
  | .memberRefParent => 5
  | .hasSemantics => 6
  | .methodDefOrRef => 7
  | .memberForwarded => 8
  | .implementation => 9
  | .customAttributeType => 10
  | .resolutionScope => 11
  | .typeOrMethodDef => 12
  | .hasCustomDebugInformation => 13

/-- Replaces an item of an array. -/
def put {α : Type} (items : Array α) (index : Nat) (value : α) : Except Error (Array α) :=
  within (index < items.size) (items.setIfInBounds index value)

/-- What the widths of columns are looked up in. -/
structure TableInfo where
  rows : Array UInt32
  /-- The bits that hold any row number of a table, by the table. -/
  bits : Array Nat
  /-- The bits of a coded index, by its kind. -/
  codedBits : Array Nat
  wideStrings : Bool
  wideGuids : Bool
  wideBlobs : Bool

namespace TableInfo

/-- The number of bits that hold any row number, at least one. -/
def rowBits (rows : UInt32) : Except Error Nat :=
  if rows = 0 then .ok 1 else bitLength .word rows.toNat

/-- The number of bits of a coded index: those of its largest table, and those of the tag. -/
def kindBits (bits : Array Nat) (kind : CodedKind) : Except Error Nat := do
  let tables ← kind.tables.mapM fun table => item bits table.id
  add .byte (tables.max?.getD 1) (← tagBits kind)

/-- What the widths of columns are looked up in, for row counts and the byte of heap flags. -/
def ofRowCounts (counts : RowCounts) (heapSizes : UInt8) : Except Error TableInfo := do
  let bits ← counts.toArray.mapM rowBits
  let codedBits ← CodedKind.all.foldlM (fun codedBits kind => do
    put codedBits (number kind) (← kindBits bits kind)) (Array.replicate CodedKind.all.length 0)
  return {
    rows := counts.toArray, bits, codedBits
    wideStrings := heapSizes &&& 0x01 != 0
    wideGuids := heapSizes &&& 0x02 != 0
    wideBlobs := heapSizes &&& 0x04 != 0 }

/-- The widths of a layout. -/
def ofLayout (layout : Layout) : TableInfo where
  rows := layout.rows.toArray
  bits := layout.rows.toArray.map fun rows => if rows = 0 then 1 else rows.toNat.log2 + 1
  codedBits := (CodedKind.all.map layout.codedBits).toArray
  wideStrings := layout.wideStrings
  wideGuids := layout.wideGuids
  wideBlobs := layout.wideBlobs

theorem rowBits_eq (rows : UInt32) :
    rowBits rows = .ok (if rows = 0 then 1 else rows.toNat.log2 + 1) := by
  unfold rowBits
  split
  · rfl
  · next hrows =>
    exact bitLength_eq (fun hzero => hrows (UInt32.toNat_inj.mp hzero)) rows.toNat_lt

theorem item_rows (layout : Layout) (table : Table) :
    item (ofLayout layout).rows table.id = .ok (layout.rows.ofTable table) :=
  item_eq (by simpa [ofLayout] using table.id_lt)

theorem item_bits (layout : Layout) (table : Table) :
    item (ofLayout layout).bits table.id = .ok (layout.rowBits table) := by
  rw [item_eq (by simpa [ofLayout] using table.id_lt)]
  simp only [ofLayout, Array.getElem_map, Layout.rowBits, ← UInt32.toNat_inj, UInt32.reduceToNat]
  rfl

theorem item_codedBits (layout : Layout) (kind : CodedKind) :
    item (ofLayout layout).codedBits (number kind) = .ok (layout.codedBits kind) := by
  cases kind <;> rfl

theorem rowBits_le (layout : Layout) (table : Table) : layout.rowBits table ≤ 32 := by
  simp only [Layout.rowBits]
  split
  · omega
  · next hrows =>
    have hlog := (Nat.log2_lt hrows).mpr (layout.rows.ofTable table).toNat_lt
    omega

theorem foldl_max_le {values : List Nat} {bound start : Nat} (hstart : start ≤ bound)
    (hvalues : ∀ value ∈ values, value ≤ bound) : values.foldl max start ≤ bound := by
  induction values generalizing start with
  | nil => exact hstart
  | cons value values ih =>
    exact ih (Nat.max_le.mpr ⟨hstart, hvalues value List.mem_cons_self⟩) fun other hother =>
      hvalues other (List.mem_cons_of_mem value hother)

theorem max?_getD {values : List Nat} (hvalues : values ≠ []) :
    values.max?.getD 1 = values.foldl max 0 := by
  cases values with
  | nil => exact absurd rfl hvalues
  | cons value values => simp [List.max?]

theorem kindBits_eq (layout : Layout) (kind : CodedKind) :
    kindBits (ofLayout layout).bits kind = .ok (layout.codedBits kind) := by
  have htables := mapM_eq_ok fun table (_ : table ∈ kind.tables) => item_bits layout table
  have hne : kind.tables.map layout.rowBits ≠ [] := by cases kind <;> exact nofun
  have hle : (kind.tables.map layout.rowBits).foldl max 0 ≤ 32 :=
    foldl_max_le (by omega) (by simp [rowBits_le])
  have htag := kind.tagBits_le
  rw [kindBits, htables, ok_bind, tagBits_eq, ok_bind, max?_getD hne]
  exact add_eq (by simp only [Word.limit]; omega)

/-- Kinds whose places follow those that are taken get their values there. -/
theorem foldlM_put_append (f : CodedKind → Nat) (kinds : List CodedKind) (done : List Nat)
    (hplaces : kinds.map number = List.range' done.length kinds.length) :
    kinds.foldlM (fun codedBits kind => put codedBits (number kind) (f kind))
      (done ++ List.replicate kinds.length 0).toArray = .ok (done ++ kinds.map f).toArray := by
  induction kinds generalizing done with
  | nil => rfl
  | cons kind kinds ih =>
    rw [List.map_cons, List.length_cons, List.range'_succ, List.cons.injEq] at hplaces
    obtain ⟨hplace, hplaces⟩ := hplaces
    have hput : put (done ++ List.replicate (kinds.length + 1) 0).toArray (number kind) (f kind) =
        .ok ((done ++ [f kind]) ++ List.replicate kinds.length 0).toArray := by
      rw [put, within_eq (by simp [hplace]), hplace]
      simp [List.replicate_succ]
    rw [List.foldlM_cons, List.length_cons, hput, ok_bind, ih _ (by simpa using hplaces),
      List.append_assoc, List.map_cons, List.singleton_append]

/-- Every kind has its own place. -/
theorem foldlM_put (f : CodedKind → Nat) :
    CodedKind.all.foldlM (fun codedBits kind => put codedBits (number kind) (f kind))
      (Array.replicate CodedKind.all.length 0) = .ok (CodedKind.all.map f).toArray := by
  rw [← List.toArray_replicate]
  exact foldlM_put_append f CodedKind.all [] (by decide)

theorem ofRowCounts_eq (counts : RowCounts) (heapSizes : UInt8) :
    ofRowCounts counts heapSizes = .ok (ofLayout (Layout.ofHeapSizes counts heapSizes)) := by
  have hbits : counts.toArray.mapM rowBits =
      .ok (ofLayout (Layout.ofHeapSizes counts heapSizes)).bits :=
    mapM_array_eq_ok fun rows _ => rowBits_eq rows
  rw [ofRowCounts, hbits, ok_bind]
  simp only [kindBits_eq, ok_bind]
  rw [foldlM_put]
  rfl

/-- Whether a table has more rows than a narrow index can number. -/
def isLarge (info : TableInfo) (table : Table) : Except Error Bool := do
  return 0xFFFF < (← item info.rows table.id)

/-- The number of bytes of a column that refers to rows of a table. -/
def rowIndexBytes (info : TableInfo) (table : Table) : Except Error Nat := do
  return if 16 < (← item info.bits table.id) then 4 else 2

/-- Whether a coded index of a kind needs more than two bytes. -/
def codedIsLarge (info : TableInfo) (kind : CodedKind) : Except Error Bool := do
  return 16 < (← item info.codedBits (number kind))

/-- The number of bytes of a column. -/
def columnSize (info : TableInfo) : Column → Except Error Nat
  | .u16 => .ok 2
  | .u32 => .ok 4
  | .string => .ok (if info.wideStrings then 4 else 2)
  | .guid => .ok (if info.wideGuids then 4 else 2)
  | .blob => .ok (if info.wideBlobs then 4 else 2)
  | .row table => rowIndexBytes info table
  | .coded kind => do return if ← codedIsLarge info kind then 4 else 2

/-- The number of bytes of a row, added up in words of a width. -/
def rowSize (info : TableInfo) (width : Word) (table : Table) : Except Error Nat :=
  table.columns.foldlM (fun size column => do add width size (← columnSize info column)) 0

theorem isLarge_eq (layout : Layout) (table : Table) :
    isLarge (ofLayout layout) table = .ok (layout.isLarge table) := by
  rw [isLarge, item_rows]
  rfl

theorem codedIsLarge_eq (layout : Layout) (kind : CodedKind) :
    codedIsLarge (ofLayout layout) kind = .ok (layout.codedIsLarge kind) := by
  rw [codedIsLarge, item_codedBits]
  rfl

theorem columnSize_eq (layout : Layout) (column : Column) :
    columnSize (ofLayout layout) column = .ok (column.size layout) := by
  cases column with
  | row table =>
    rw [columnSize, rowIndexBytes, item_bits]
    rfl
  | coded kind =>
    rw [columnSize, codedIsLarge_eq]
    rfl
  | _ => rfl

theorem size_column_le (layout : Layout) (column : Column) : column.size layout ≤ 4 := by
  cases column <;>
    simp only [Column.size, Layout.stringIndexBytes, Layout.guidIndexBytes, Layout.blobIndexBytes,
      Layout.rowIndexBytes, Layout.codedIndexBytes] <;>
    (try split) <;> omega

theorem length_columns_le (table : Table) : table.columns.length ≤ 9 := by
  cases table <;> decide

theorem foldlM_columnSize (layout : Layout) (width : Word) (columns : List Column) {size : Nat}
    (hsize : size + 4 * columns.length < width.limit) :
    columns.foldlM (fun size column => do
        add width size (← columnSize (ofLayout layout) column)) size =
      .ok (size + columns.foldr (fun column size => column.size layout + size) 0) := by
  induction columns generalizing size with
  | nil => rfl
  | cons column columns ih =>
    have hle := size_column_le layout column
    simp only [List.length_cons] at hsize
    rw [List.foldlM_cons, columnSize_eq, ok_bind, add_eq (by omega), ok_bind, ih (by omega),
      List.foldr_cons, Nat.add_assoc]

theorem rowSize_eq (layout : Layout) (width : Word) (table : Table) :
    rowSize (ofLayout layout) width table = .ok (table.rowSize layout) := by
  have hlength := length_columns_le table
  have hlimit : 0x100 ≤ width.limit := by cases width <;> decide
  rw [rowSize, foldlM_columnSize layout width _ (by omega), Nat.zero_add]
  rfl

theorem foldr_columnSize_le (layout : Layout) (columns : List Column) :
    columns.foldr (fun column size => column.size layout + size) 0 ≤ 4 * columns.length := by
  induction columns with
  | nil => exact Nat.le_refl 0
  | cons column columns ih =>
    have hle := size_column_le layout column
    simp only [List.foldr_cons, List.length_cons]
    omega

theorem rowSize_le (layout : Layout) (table : Table) : table.rowSize layout ≤ 36 := by
  have hlength := length_columns_le table
  have hsum := foldr_columnSize_le layout table.columns
  rw [Table.rowSize]
  omega

end TableInfo

/-- The reference that a number stands for. -/
def decode (kind : CodedKind) (value : UInt32) : Except Error CodedIndex := do
  let bits ← tagBits kind
  let mask ← sub (← shiftLeft .word 1 bits) 1
  let tag := value.toNat &&& mask
  if kind.tables.length ≤ tag then throw .outOfBounds
  let table ← item kind.tables.toArray tag
  let row ← shiftRight .word value.toNat bits
  let _token ← token table row.toUInt32
  return ⟨table, row.toUInt32⟩

theorem agrees_decode (kind : CodedKind) (value : UInt32) :
    Agrees (decode kind value) (CodedIndex.decode kind value) fun _ => True := by
  have hbits := kind.tagBits_le
  have hspan : (1 <<< kind.tagBits) % Word.word.limit = kind.tagSpan := by
    cases kind <;> rfl
  have hmask : value.toNat &&& (kind.tagSpan - 1) = value.toNat % kind.tagSpan := by
    rw [CodedKind.tagSpan, Nat.one_shiftLeft, Nat.and_two_pow_sub_one_eq_mod]
  have hshift : value.toNat >>> kind.tagBits = value.toNat / kind.tagSpan := by
    rw [CodedKind.tagSpan, Nat.one_shiftLeft, Nat.shiftRight_eq_div_pow]
  have hpos := CodedIndex.tagSpan_pos kind
  refine Agrees.step (tagBits_eq kind) <|
    Agrees.step (shiftLeft_eq (by simp only [Word.bits]; omega)) ?_
  rw [hspan]
  refine Agrees.step (sub_eq hpos) ?_
  rw [hmask, CodedIndex.decode]
  by_cases hlt : value.toNat % kind.tagSpan < kind.tables.length
  · rw [List.getElem?_eq_getElem hlt, if_neg (by omega)]
    refine Agrees.step (item_eq (by simpa using hlt)) <|
      Agrees.step (shiftRight_eq (by simp only [Word.bits]; omega)) <|
      Agrees.step (token_eq _ _) ?_
    rw [hshift]
    exact Agrees.ok trivial
  · rw [List.getElem?_eq_none (by omega), if_pos (by omega)]
    exact Agrees.error outOfBounds_ne_fault

/-- Reads a number of a row of a table. -/
def rowIndex (info : TableInfo) (table : Table) : Reader UInt32 := do
  index (← Reader.lift (info.isLarge table))

/-- Reads a reference from a column. -/
def codedIndex (info : TableInfo) (kind : CodedKind) : Reader CodedIndex := do
  let value ← index (← Reader.lift (info.codedIsLarge kind))
  Reader.lift (decode kind value)

theorem readsAs_rowIndex (layout : Layout) (table : Table) :
    ReadsAs (rowIndex (.ofLayout layout) table) (Index.read (layout.isLarge table)) 2
      fun _ => True :=
  ReadsAs.step (TableInfo.isLarge_eq layout table) (readsAs_index _)

theorem read_eq_lift (layout : Layout) (kind : CodedKind) :
    CodedIndex.read layout kind = (Index.read (layout.codedIsLarge kind) >>= fun value =>
      Reader.lift (CodedIndex.decode kind value)) := by
  unfold CodedIndex.read
  refine bind_congr fun value => ?_
  cases CodedIndex.decode kind value <;> rfl

theorem readsAs_codedIndex (layout : Layout) (kind : CodedKind) :
    ReadsAs (codedIndex (.ofLayout layout) kind) (CodedIndex.read layout kind) 2 fun _ => True := by
  rw [read_eq_lift]
  exact ReadsAs.step (TableInfo.codedIsLarge_eq layout kind) <|
    (readsAs_index _).bind fun value _ => ReadsAs.lift (agrees_decode kind value)

theorem relocates_codedIndex (layout : Layout) (kind : CodedKind) :
    Relocates (CodedIndex.read layout kind) := by
  rw [read_eq_lift]
  exact (Relocates.index _).bind fun value => Relocates.lift _

end PortablePdb.Checked
