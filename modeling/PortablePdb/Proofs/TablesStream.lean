import Mathlib.Data.List.Basic
import PortablePdb.Container.Encode
import PortablePdb.Metadata.TablesStream
import PortablePdb.Proofs.Rows

namespace PortablePdb

theorem testBit_foldl_or {α : Type} (bits : α → UInt64) (items : List α) (mask : UInt64) (i : Nat) :
    (items.foldl (fun mask item => mask ||| bits item) mask).toNat.testBit i =
      (mask.toNat.testBit i || items.any fun item => (bits item).toNat.testBit i) := by
  induction items generalizing mask with
  | nil => simp
  | cons item items ih =>
    rw [List.foldl_cons, ih, List.any_cons, UInt64.toNat_or, Nat.testBit_or, Bool.or_assoc]

theorem testBit_shiftLeft {slot : Nat} (hslot : slot < 64) (i : Nat) :
    ((1 : UInt64) <<< slot.toUInt64).toNat.testBit i = decide (slot = i) := by
  have hlt : 2 ^ slot < 2 ^ 64 := Nat.pow_lt_pow_right (by decide) hslot
  have hsmall : slot < 2 ^ 64 := by omega
  rw [UInt64.toNat_shiftLeft, Nat.toUInt64_eq, UInt64.toNat_ofNat', Nat.mod_eq_of_lt hsmall,
    Nat.mod_eq_of_lt hslot, UInt64.toNat_one, Nat.one_shiftLeft, Nat.mod_eq_of_lt hlt,
    Nat.testBit_two_pow]

namespace Table

theorem testBit_mask (table : Table) (i : Nat) :
    table.mask.toNat.testBit i = decide (table.id = i) :=
  testBit_shiftLeft table.id_lt i

theorem id_of_ofId? {slot : Nat} {table : Table} (htable : ofId? slot = some table) :
    table.id = slot := by
  simpa using List.find?_some htable

/-- The tables of a mask, in the order of their ids. -/
def listed (valid : UInt64) (slots : List Nat) : List Table :=
  slots.filterMap fun slot => if valid.toNat.testBit slot then ofId? slot else none

theorem listed_cons_of_set {valid : UInt64} {slot : Nat} {slots : List Nat} {table : Table}
    (hset : valid.toNat.testBit slot = true) (htable : ofId? slot = some table) :
    listed valid (slot :: slots) = table :: listed valid slots := by
  simp [listed, hset, htable]

theorem listed_cons_of_clear {valid : UInt64} {slot : Nat} {slots : List Nat}
    (hclear : valid.toNat.testBit slot = false) :
    listed valid (slot :: slots) = listed valid slots := by
  simp [listed, hclear]

theorem listed_range (valid : UInt64) :
    listed valid (List.range 64) = all.filter fun table => valid.toNat.testBit table.id := by
  have hall : all = (List.range 64).filterMap ofId? := by decide
  rw [hall, List.filter_filterMap, listed]
  apply List.filterMap_congr
  intro slot _
  cases htable : ofId? slot with
  | none => simp
  | some table =>
    rw [Option.filter_some, id_of_ofId? htable]

end Table

/-- Each flag of a byte of heap flags can be told from the others. -/
private theorem heapFlags (strings guids blobs : Bool) :
    let flags : UInt8 := (if strings then 0x01 else 0) ||| (if guids then 0x02 else 0) |||
      (if blobs then 0x04 else 0)
    (flags &&& 0x01 != 0) = strings ∧ (flags &&& 0x02 != 0) = guids ∧
      (flags &&& 0x04 != 0) = blobs ∧ (flags &&& 0x40 != 0) = false := by
  revert strings guids blobs
  decide

theorem Layout.ofHeapSizes_heapSizes (layout : Layout) :
    ofHeapSizes layout.rows layout.heapSizes = layout := by
  obtain ⟨hstrings, hguids, hblobs, _⟩ :=
    heapFlags layout.wideStrings layout.wideGuids layout.wideBlobs
  rw [ofHeapSizes, heapSizes, hstrings, hguids, hblobs]

theorem Layout.heapSizes_and (layout : Layout) : (layout.heapSizes &&& 0x40 != 0) = false :=
  (heapFlags layout.wideStrings layout.wideGuids layout.wideBlobs).2.2.2

namespace TablesStream

open Reader

/-- The row counts of the tables in a mask are read back, if each of its bits stands for a table
that the stream may have. -/
theorem takes_readCounts (isPdb : Bool) {valid : UInt64} (count : Table → UInt32) {slots : List Nat}
    (hslots : ∀ slot ∈ slots, valid.toNat.testBit slot = true →
      ∃ table, Table.ofId? slot = some table ∧ (isPdb = true → table.isDebug = true)) :
    (readCounts isPdb valid slots).Takes
      (Bytes.concat ((Table.listed valid slots).map fun table => Bytes.le32 (count table)))
      ((Table.listed valid slots).map fun table => (table, count table)) := by
  induction slots with
  | nil => exact takes_pure []
  | cons slot slots ih =>
    have hrest := ih fun other hother => hslots other (List.mem_cons_of_mem slot hother)
    cases hset : valid.toNat.testBit slot with
    | false =>
      rw [Table.listed_cons_of_clear hset, readCounts, if_neg (by simp [hset])]
      exact hrest
    | true =>
      obtain ⟨table, htable, hdebug⟩ := hslots slot List.mem_cons_self hset
      have hallowed : (isPdb && !table.isDebug) = false := by
        cases isPdb with
        | false => rfl
        | true => simp [hdebug rfl]
      rw [Table.listed_cons_of_set hset htable, readCounts, if_pos hset, htable]
      simp only [hallowed, Bool.false_eq_true, if_false, List.map_cons, Bytes.concat_cons]
      exact (takes_le32 (count table)).bind hrest.bind_pure

/-- Tables that stand one after the other are located, each at the bytes of its rows. -/
theorem locate_eq {layout : Layout} {data : Bytes} {count : Table → UInt32}
    {segment : Table → Bytes} {tables : List Table} {position : Nat}
    (hsize : ∀ table ∈ tables, (segment table).size = (count table).toNat * table.rowSize layout)
    (hat : data.HasAt position (Bytes.concat (tables.map segment))) :
    ∃ locations, locate layout data.size position
        (tables.map fun table => (table, count table)) = .ok locations ∧
      locations.map (·.table) = tables ∧
      ∀ location ∈ locations, location.rows = count location.table ∧
        data.HasAt location.start (segment location.table) := by
  induction tables generalizing position with
  | nil => exact ⟨[], rfl, rfl, nofun⟩
  | cons table tables ih =>
    have hfirst := hsize table List.mem_cons_self
    have hle := hat.left.size_le
    obtain ⟨locations, hlocate, htables, hlocations⟩ :=
      ih (fun other hother => hsize other (List.mem_cons_of_mem table hother)) hat.right
    refine ⟨⟨table, position, count table⟩ :: locations, ?_, by simp [htables], ?_⟩
    · rw [hfirst] at hlocate hle
      rw [List.map_cons, locate]
      simp only
      rw [if_neg (by omega)]
      exact bind_eq_ok_iff.mpr ⟨locations, hlocate, rfl⟩
    · intro location hlocation
      rcases List.mem_cons.mp hlocation with rfl | hlocation
      · exact ⟨rfl, hat.left⟩
      · exact hlocations location hlocation

theorem get_typeSystemCounts (rows : RowCounts) (slot : Fin 64) :
    (typeSystemCounts rows).get slot = if slot.val < 0x30 then rows.get slot else 0 :=
  Vector.getElem_ofFn slot.isLt

theorem typeSystemCounts_congr {known rows : RowCounts}
    (hknown : ∀ slot : Fin 64, slot.val < 0x30 → known.get slot = rows.get slot) :
    typeSystemCounts known = typeSystemCounts rows := by
  apply Vector.ext
  intro i hi
  have hleft := get_typeSystemCounts known ⟨i, hi⟩
  have hright := get_typeSystemCounts rows ⟨i, hi⟩
  refine hleft.trans (Eq.trans ?_ hright.symm)
  by_cases hlow : i < 0x30
  · rw [if_pos hlow, if_pos hlow, hknown ⟨i, hi⟩ hlow]
  · rw [if_neg hlow, if_neg hlow]

theorem typeSystemCounts_self (rows : RowCounts) :
    typeSystemCounts (typeSystemCounts rows) = typeSystemCounts rows :=
  typeSystemCounts_congr fun slot hslot => by rw [get_typeSystemCounts, if_pos hslot]

/-- Row counts of tables that are not set stay as they were. -/
theorem get_foldl_setTable (count : Table → UInt32) {tables : List Table} (slot : Fin 64)
    (hslot : ∀ table ∈ tables, table.id ≠ slot.val) (rows : RowCounts) :
    ((tables.map fun table => (table, count table)).foldl
      (fun rows (table, count) => rows.setTable table count) rows).get slot = rows.get slot := by
  induction tables generalizing rows with
  | nil => rfl
  | cons table tables ih =>
    have hne := hslot table List.mem_cons_self
    rw [List.map_cons, List.foldl_cons,
      ih fun other hother => hslot other (List.mem_cons_of_mem table hother)]
    exact Vector.getElem_set_ne _ _ hne

/-- A table whose row count is set has this count. -/
theorem ofTable_foldl_setTable (count : Table → UInt32) {tables : List Table} {table : Table}
    (htable : table ∈ tables) (rows : RowCounts) :
    ((tables.map fun table => (table, count table)).foldl
      (fun rows (table, count) => rows.setTable table count) rows).ofTable table = count table := by
  induction tables generalizing rows with
  | nil => cases htable
  | cons first tables ih =>
    rw [List.map_cons, List.foldl_cons]
    by_cases hlater : table ∈ tables
    · exact ih hlater _
    · obtain rfl : table = first := by simpa [hlater] using htable
      have hne : ∀ other ∈ tables, other.id ≠ table.id := by
        intro other hother hid
        exact hlater (Table.id_injective hid ▸ hother)
      rw [RowCounts.ofTable, get_foldl_setTable count ⟨table.id, table.id_lt⟩ hne]
      exact Vector.getElem_set_self _

end TablesStream

namespace DebugTables

/-- The bytes of the rows of one table. -/
def encodeTable (tables : DebugTables) (layout : Layout) : Table → Except Error Bytes
  | .document => encodeRows layout tables.documents.toList
  | .methodDebugInformation => encodeRows layout tables.methods.toList
  | .localScope => encodeRows layout tables.localScopes.toList
  | .localVariable => encodeRows layout tables.localVariables.toList
  | .localConstant => encodeRows layout tables.localConstants.toList
  | .importScope => encodeRows layout tables.importScopes.toList
  | .stateMachineMethod => encodeRows layout tables.stateMachines.toList
  | .customDebugInformation => encodeRows layout tables.customInfo.toList
  | _ => .ok #[]

variable {tables : DebugTables} {layout : Layout}

theorem debugTables_eq : Container.debugTables =
    [.document, .methodDebugInformation, .localScope, .localVariable, .localConstant, .importScope,
      .stateMachineMethod, .customDebugInformation] := by
  decide

theorem encodeAllRows_eq {body : Bytes} (hbody : tables.encodeAllRows layout = .ok body) :
    ∃ segment : Table → Bytes, (∀ table, tables.encodeTable layout table = .ok (segment table)) ∧
      body = Bytes.concat (Container.debugTables.map segment) := by
  obtain ⟨documents, hdocuments, hbody⟩ := bind_eq_ok_iff.mp hbody
  obtain ⟨methods, hmethods, hbody⟩ := bind_eq_ok_iff.mp hbody
  obtain ⟨localScopes, hlocalScopes, hbody⟩ := bind_eq_ok_iff.mp hbody
  obtain ⟨localVariables, hlocalVariables, hbody⟩ := bind_eq_ok_iff.mp hbody
  obtain ⟨localConstants, hlocalConstants, hbody⟩ := bind_eq_ok_iff.mp hbody
  obtain ⟨importScopes, himportScopes, hbody⟩ := bind_eq_ok_iff.mp hbody
  obtain ⟨stateMachines, hstateMachines, hbody⟩ := bind_eq_ok_iff.mp hbody
  obtain ⟨customInfo, hcustomInfo, hbody⟩ := bind_eq_ok_iff.mp hbody
  refine ⟨fun
    | .document => documents
    | .methodDebugInformation => methods
    | .localScope => localScopes
    | .localVariable => localVariables
    | .localConstant => localConstants
    | .importScope => importScopes
    | .stateMachineMethod => stateMachines
    | .customDebugInformation => customInfo
    | _ => #[], ?_, ?_⟩
  · intro table
    cases table <;> first | assumption | rfl
  · rw [← pure_eq_ok_iff.mp hbody, debugTables_eq]
    simp [Array.append_assoc]

theorem size_encodeTable {table : Table} {form : Bytes}
    (hform : tables.encodeTable layout table = .ok form) :
    form.size = tables.size table * table.rowSize layout := by
  have hrows {ρ : Type} [StoredRow ρ] (rows : Array ρ)
      (hform : encodeRows layout rows.toList = .ok form) :
      form.size = rows.size * (Row.table ρ).rowSize layout := by
    rw [size_encodeRows hform, Array.length_toList, StoredRow.size_eq_rowSize]
  cases table with
  | document => exact hrows tables.documents hform
  | methodDebugInformation => exact hrows tables.methods hform
  | localScope => exact hrows tables.localScopes hform
  | localVariable => exact hrows tables.localVariables hform
  | localConstant => exact hrows tables.localConstants hform
  | importScope => exact hrows tables.importScopes hform
  | stateMachineMethod => exact hrows tables.stateMachines hform
  | customDebugInformation => exact hrows tables.customInfo hform
  | _ =>
    cases hform
    simp [DebugTables.size]

theorem four_le_rowSize (layout : Layout) {table : Table} (hdebug : table.isDebug = true) :
    4 ≤ table.rowSize layout := by
  have hsize (ρ : Type) [StoredRow ρ] : 4 ≤ (Row.table ρ).rowSize layout := by
    rw [← StoredRow.size_eq_rowSize]
    exact StoredRow.four_le_size layout
  cases table with
  | document => exact hsize DocumentRow
  | methodDebugInformation => exact hsize MethodDebugRow
  | localScope => exact hsize LocalScopeRow
  | localVariable => exact hsize LocalVariableRow
  | localConstant => exact hsize LocalConstantRow
  | importScope => exact hsize ImportScopeRow
  | stateMachineMethod => exact hsize StateMachineRow
  | customDebugInformation => exact hsize CustomInfoRow
  | _ => cases hdebug

theorem toNat_rowCount (table : Table) :
    (tables.rowCount table).toNat = min (tables.size table) 0xFFFFFFFF := by
  rw [rowCount, Nat.toUInt32_eq, UInt32.toNat_ofNat']
  exact Nat.mod_eq_of_lt (by omega)

theorem rowCount_eq_zero_iff {table : Table} :
    tables.rowCount table = 0 ↔ tables.size table = 0 := by
  rw [← UInt32.toNat_inj, toNat_rowCount]
  simp only [UInt32.toNat_zero]
  omega

theorem size_eq_zero_of_isDebug_eq_false {table : Table} (hdebug : table.isDebug = false) :
    tables.size table = 0 := by
  cases table <;> first | rfl | cases hdebug

theorem mem_present {table : Table} :
    table ∈ tables.present ↔ table.isDebug = true ∧ tables.rowCount table ≠ 0 := by
  simp [present, Container.debugTables, Table.mem_all, and_comm]

/-- The mask of the tables that have rows. -/
def presentMask (tables : DebugTables) : UInt64 :=
  tables.present.foldl (fun mask table => mask ||| table.mask) 0

theorem testBit_presentMask {i : Nat} :
    tables.presentMask.toNat.testBit i = true ↔ ∃ table ∈ tables.present, table.id = i := by
  simp [presentMask, testBit_foldl_or, Table.testBit_mask]

theorem listed_presentMask (tables : DebugTables) :
    Table.listed tables.presentMask (List.range 64) = tables.present := by
  rw [Table.listed_range, present, Container.debugTables, List.filter_filter]
  apply List.filter_congr
  intro table _
  rw [Bool.eq_iff_iff, testBit_presentMask]
  constructor
  · rintro ⟨other, hother, hid⟩
    obtain rfl := Table.id_injective hid
    simpa [and_comm] using mem_present.mp hother
  · intro htable
    exact ⟨table, mem_present.mpr (by simpa [and_comm] using htable), rfl⟩

/-- The row counts that a reader puts together are those of the writer. -/
theorem foldl_setTable_eq (tables : DebugTables) (rows : RowCounts) :
    (tables.present.map fun table => (table, tables.rowCount table)).foldl
      (fun rows (table, count) => rows.setTable table count)
      (TablesStream.typeSystemCounts rows) = tables.allRows rows := by
  apply Vector.ext
  intro i hi
  change Vector.get _ ⟨i, hi⟩ = _
  by_cases htypeSystem : i < 0x30
  · have hne : ∀ table ∈ tables.present, table.id ≠ i := by
      intro table htable hid
      have hdebug : 0x30 ≤ table.id := by simpa [Table.isDebug] using (mem_present.mp htable).1
      omega
    rw [TablesStream.get_foldl_setTable tables.rowCount ⟨i, hi⟩ hne]
    rw [TablesStream.get_typeSystemCounts, allRows, Vector.getElem_ofFn, if_pos htypeSystem,
      if_pos htypeSystem]
  · simp only [allRows, Vector.getElem_ofFn, if_neg htypeSystem]
    by_cases hpresent : ∃ table ∈ tables.present, table.id = i
    · obtain ⟨table, htable, rfl⟩ := hpresent
      rw [Table.ofId?_id]
      exact TablesStream.ofTable_foldl_setTable tables.rowCount htable _
    · have hne : ∀ table ∈ tables.present, table.id ≠ i := fun table htable hid =>
        hpresent ⟨table, htable, hid⟩
      rw [TablesStream.get_foldl_setTable tables.rowCount ⟨i, hi⟩ hne]
      have hzero : (((Table.ofId? i).map tables.rowCount).getD 0 : UInt32) = 0 := by
        cases htable : Table.ofId? i with
        | none => rfl
        | some table =>
          have hid := Table.id_of_ofId? htable
          have hdebug : table.isDebug = true := by
            simp only [Table.isDebug, decide_eq_true_eq]
            omega
          by_contra hcount
          exact hne table (mem_present.mpr ⟨hdebug, hcount⟩) hid
      rw [hzero, TablesStream.get_typeSystemCounts, if_neg htypeSystem]

end DebugTables

/-- Rows of one of the tables of a container. -/
class DebugRow (ρ : Type) extends StoredRow ρ where
  /-- The rows among the tables. -/
  rowsOf : DebugTables → Array ρ
  size_eq : ∀ tables : DebugTables, tables.size (Row.table ρ) = (rowsOf tables).size
  encodeTable_eq : ∀ (tables : DebugTables) (layout : Layout),
    tables.encodeTable layout (Row.table ρ) = encodeRows layout (rowsOf tables).toList

instance : DebugRow DocumentRow where
  rowsOf := DebugTables.documents
  size_eq _ := rfl
  encodeTable_eq _ _ := rfl

instance : DebugRow MethodDebugRow where
  rowsOf := DebugTables.methods
  size_eq _ := rfl
  encodeTable_eq _ _ := rfl

instance : DebugRow LocalScopeRow where
  rowsOf := DebugTables.localScopes
  size_eq _ := rfl
  encodeTable_eq _ _ := rfl

instance : DebugRow LocalVariableRow where
  rowsOf := DebugTables.localVariables
  size_eq _ := rfl
  encodeTable_eq _ _ := rfl

instance : DebugRow LocalConstantRow where
  rowsOf := DebugTables.localConstants
  size_eq _ := rfl
  encodeTable_eq _ _ := rfl

instance : DebugRow ImportScopeRow where
  rowsOf := DebugTables.importScopes
  size_eq _ := rfl
  encodeTable_eq _ _ := rfl

instance : DebugRow StateMachineRow where
  rowsOf := DebugTables.stateMachines
  size_eq _ := rfl
  encodeTable_eq _ _ := rfl

instance : DebugRow CustomInfoRow where
  rowsOf := DebugTables.customInfo
  size_eq _ := rfl
  encodeTable_eq _ _ := rfl

/-- A stream locates tables if it has those of them that have rows, and each stands where it is
located. -/
structure TablesStream.Locates (stream : TablesStream) (tables : DebugTables) : Prop where
  present : stream.locations.map (·.table) = tables.present
  located : ∀ location ∈ stream.locations, location.rows = tables.rowCount location.table ∧
    ∃ form, tables.encodeTable stream.layout location.table = .ok form ∧
      stream.data.HasAt location.start form
  size_le : ∀ table, tables.size table ≤ 0xFFFFFFFF

namespace TablesStream.Locates

variable {stream : TablesStream} {tables : DebugTables}

theorem location?_eq_some (hlocates : stream.Locates tables) {table : Table}
    (htable : table ∈ tables.present) :
    ∃ location ∈ stream.locations, stream.location? table = some location ∧
      location.table = table := by
  have hmem : table ∈ stream.locations.map (·.table) := hlocates.present ▸ htable
  obtain ⟨location, hlocation, htable⟩ := List.mem_map.mp hmem
  cases hfound : stream.location? table with
  | none =>
    have hnot := List.find?_eq_none.mp hfound location hlocation
    simp [htable] at hnot
  | some found =>
    refine ⟨found, List.mem_of_find?_eq_some hfound, rfl, ?_⟩
    simpa using List.find?_some hfound

theorem location?_eq_none (hlocates : stream.Locates tables) {table : Table}
    (htable : table ∉ tables.present) : stream.location? table = none := by
  rw [location?, List.find?_eq_none]
  intro location hlocation heq
  have hmem : location.table ∈ tables.present := hlocates.present ▸ List.mem_map_of_mem hlocation
  exact htable (by simpa using (beq_iff_eq.mp heq) ▸ hmem)

/-- The row counts of a stream are those of the tables. -/
theorem rowCount_eq (hlocates : stream.Locates tables) (table : Table) :
    stream.rowCount table = tables.rowCount table := by
  by_cases htable : table ∈ tables.present
  · obtain ⟨location, hlocation, hfound, rfl⟩ := hlocates.location?_eq_some htable
    rw [rowCount, hfound]
    exact (hlocates.located location hlocation).1
  · rw [rowCount, hlocates.location?_eq_none htable, Option.map_none, Option.getD_none, eq_comm,
      DebugTables.rowCount_eq_zero_iff]
    cases hdebug : table.isDebug with
    | false => exact DebugTables.size_eq_zero_of_isDebug_eq_false hdebug
    | true =>
      rw [← DebugTables.rowCount_eq_zero_iff]
      by_contra hcount
      exact htable (DebugTables.mem_present.mpr ⟨hdebug, hcount⟩)

theorem toNat_rowCount (hlocates : stream.Locates tables) (table : Table) :
    (stream.rowCount table).toNat = tables.size table := by
  rw [hlocates.rowCount_eq, DebugTables.toNat_rowCount, Nat.min_eq_left (hlocates.size_le table)]

/-- The rows of a table are read back in order, under the numbers of their places. -/
theorem rows_eq (hlocates : stream.Locates tables) {ρ : Type} [DebugRow ρ]
    (hkept : ∀ row ∈ DebugRow.rowsOf (ρ := ρ) tables, StoredRow.IsKept row) :
    stream.rows ρ = numberedRows (DebugRow.rowsOf tables) := by
  by_cases htable : Row.table ρ ∈ tables.present
  · obtain ⟨location, hlocation, hfound, hsame⟩ := hlocates.location?_eq_some htable
    obtain ⟨hrows, form, hform, hat⟩ := hlocates.located location hlocation
    rw [hsame, DebugRow.encodeTable_eq] at hform
    have hcount : location.rows.toNat = (DebugRow.rowsOf (ρ := ρ) tables).size := by
      rw [hrows, hsame, DebugTables.toNat_rowCount, Nat.min_eq_left (hlocates.size_le _),
        DebugRow.size_eq]
    have htable? : stream.table? ρ =
        some ⟨stream.data, location.start, location.rows, stream.layout⟩ := by
      rw [table?, hfound]
      simp only [Option.bind_eq_bind, Option.bind_some]
      rw [RowTable.ofData_eq hform hcount hat]
      rfl
    rw [rows, htable?]
    exact RowTable.rows_eq hform hcount hkept hat
  · have hzero : stream.rowCount (Row.table ρ) = 0 := by
      rw [rowCount, hlocates.location?_eq_none htable]
      rfl
    have hsize := hlocates.toNat_rowCount (Row.table ρ)
    rw [hzero, DebugRow.size_eq] at hsize
    have hempty : DebugRow.rowsOf (ρ := ρ) tables = #[] := Array.eq_empty_of_size_eq_zero hsize.symm
    rw [rows, table?, hlocates.location?_eq_none htable, hempty]
    rfl

end TablesStream.Locates

namespace DebugTables

variable {tables : DebugTables} {typeSystemRows : RowCounts} {data : Bytes}

/-- The parts of a stream: the version, the flags and the masks, the row counts of the tables that
are present, and the rows of each. -/
theorem encodeStream_eq (hdata : tables.encodeStream typeSystemRows = .ok data) :
    ∃ segment : Table → Bytes,
      (∀ table, tables.encodeTable (tables.layout typeSystemRows) table = .ok (segment table)) ∧
      data.HasAt 0 (Bytes.le32 0 ++ (#[2] ++ (#[0] ++
        (#[(tables.layout typeSystemRows).heapSizes] ++ (#[1] ++
          (Bytes.le64 tables.presentMask ++ (Bytes.le64 Container.sortedTables ++
            (Bytes.concat (tables.present.map fun table => Bytes.le32 (tables.rowCount table)) ++
              Bytes.concat (tables.present.map segment))))))))) := by
  simp only [encodeStream] at hdata
  obtain ⟨body, hbody, hdata⟩ := bind_eq_ok_iff.mp hdata
  obtain ⟨segment, hsegment, hsegments⟩ := encodeAllRows_eq hbody
  refine ⟨segment, hsegment, ?_⟩
  have hempty : ∀ table ∈ Container.debugTables, decide (tables.rowCount table ≠ 0) = false →
      segment table = #[] := by
    intro table _ hcount
    have hzero : tables.size table = 0 := rowCount_eq_zero_iff.mp (by simpa using hcount)
    apply Array.eq_empty_of_size_eq_zero
    rw [size_encodeTable (hsegment table), hzero, Nat.zero_mul]
  have hflags (heapSizes : UInt8) :
      (#[2, 0, heapSizes, 1] : Bytes) = #[2] ++ (#[0] ++ (#[heapSizes] ++ #[1])) := by
    simp
  rw [← pure_eq_ok_iff.mp hdata, hsegments, Bytes.concat_filter hempty, Bytes.foldl_append_eq,
    hflags]
  have hpadded := Bytes.hasAt_pad4 (Bytes.le32 0 ++
    (#[2] ++ (#[0] ++ (#[(tables.layout typeSystemRows).heapSizes] ++ #[1]))) ++
      Bytes.le64 tables.presentMask ++ Bytes.le64 Container.sortedTables ++
        Bytes.concat (tables.present.map fun table => Bytes.le32 (tables.rowCount table)) ++
          Bytes.concat (tables.present.map segment))
  simp only [Array.append_assoc] at hpadded ⊢
  exact hpadded

theorem size_concat_counts (tables : DebugTables) :
    (Bytes.concat (tables.present.map fun table => Bytes.le32 (tables.rowCount table))).size =
      4 * tables.present.length := by
  induction tables.present with
  | nil => rfl
  | cons table rest ih =>
    rw [List.map_cons, Bytes.concat_cons, Array.size_append, ih, Bytes.le32, Bytes.size_ofNatLE,
      List.length_cons]
    omega

/-- A table whose rows stand within fewer bytes than a word can count has fewer rows still. -/
theorem size_le_of_hasAt {layout : Layout} {segment : Table → Bytes} {position : Nat}
    (hsegment : ∀ table, tables.encodeTable layout table = .ok (segment table))
    (hat : data.HasAt position (Bytes.concat (tables.present.map segment)))
    (hdata : data.size < 0x100000000) (table : Table) : tables.size table ≤ 0xFFFFFFFF := by
  by_cases htable : table ∈ tables.present
  · obtain ⟨before, after, heq⟩ := List.append_of_mem htable
    rw [heq, List.map_append, List.map_cons, Bytes.concat_append, Bytes.concat_cons] at hat
    have hle := hat.right.left.size_le
    have hrow := four_le_rowSize layout (mem_present.mp htable).1
    have hmul := Nat.mul_le_mul_left (tables.size table) hrow
    rw [size_encodeTable (hsegment table)] at hle
    omega
  · cases hdebug : table.isDebug with
    | false => simp [size_eq_zero_of_isDebug_eq_false hdebug]
    | true =>
      have hzero : tables.rowCount table = 0 := by
        by_contra hcount
        exact htable (mem_present.mpr ⟨hdebug, hcount⟩)
      simp [rowCount_eq_zero_iff.mp hzero]

/-- The stream of tables is read by a reader that knows the row counts of the type system, and it
has the tables where the reader locates them. -/
theorem read_encodeStream {known : RowCounts}
    (hdata : tables.encodeStream typeSystemRows = .ok data) (hsize : data.size < 0x100000000)
    (hknown : TablesStream.typeSystemCounts known =
      TablesStream.typeSystemCounts typeSystemRows) :
    ∃ stream, TablesStream.read data (some known) = .ok stream ∧ stream.Locates tables := by
  obtain ⟨segment, hsegment, hparts⟩ := encodeStream_eq hdata
  have hmajor : data.HasAt 4 #[2] := hparts.right.left
  have hminor : data.HasAt 5 #[0] := hparts.right.right.left
  have hheaps : data.HasAt 6 #[(tables.layout typeSystemRows).heapSizes] :=
    hparts.right.right.right.left
  have hvalid : data.HasAt 8 (Bytes.le64 tables.presentMask) :=
    hparts.right.right.right.right.right.left
  have hsorted : data.HasAt 16 (Bytes.le64 Container.sortedTables) :=
    hparts.right.right.right.right.right.right.left
  have hcounts : data.HasAt 24
      (Bytes.concat (tables.present.map fun table => Bytes.le32 (tables.rowCount table))) :=
    hparts.right.right.right.right.right.right.right.left
  have hbody : data.HasAt (24 + 4 * tables.present.length)
      (Bytes.concat (tables.present.map segment)) := by
    rw [← size_concat_counts]
    exact hparts.right.right.right.right.right.right.right.right
  have hle := hbody.size_le
  have hslots : ∀ slot ∈ List.range 64, tables.presentMask.toNat.testBit slot = true →
      ∃ table, Table.ofId? slot = some table ∧
        ((some known).isSome = true → table.isDebug = true) := by
    intro slot _ hset
    obtain ⟨table, htable, rfl⟩ := testBit_presentMask.mp hset
    exact ⟨table, Table.ofId?_id table, fun _ => (mem_present.mp htable).1⟩
  have hreadCounts := TablesStream.takes_readCounts (some known).isSome
    tables.rowCount hslots
  rw [listed_presentMask] at hreadCounts
  have hsizes : ∀ table ∈ tables.present, (segment table).size =
      (tables.rowCount table).toNat * table.rowSize (tables.layout typeSystemRows) := by
    intro table _
    have hsmall := size_le_of_hasAt hsegment hbody hsize table
    rw [size_encodeTable (hsegment table), toNat_rowCount, Nat.min_eq_left hsmall]
  obtain ⟨locations, hlocate, hpresent, hlocated⟩ := TablesStream.locate_eq hsizes hbody
  have hlayout : Layout.ofHeapSizes (tables.allRows typeSystemRows)
      (tables.layout typeSystemRows).heapSizes = tables.layout typeSystemRows :=
    Layout.ofHeapSizes_heapSizes (tables.layout typeSystemRows)
  refine ⟨⟨2, 0, (tables.layout typeSystemRows).heapSizes, tables.presentMask,
    Container.sortedTables, tables.layout typeSystemRows, data, locations⟩, ?_, hpresent, ?_,
    size_le_of_hasAt hsegment hbody hsize⟩
  · unfold TablesStream.read
    rw [if_neg (by omega)]
    refine bind_eq_ok_iff.mpr ⟨2, (Reader.takes_u8 2).evalAt_eq hmajor, ?_⟩
    refine bind_eq_ok_iff.mpr ⟨0, (Reader.takes_u8 0).evalAt_eq hminor, ?_⟩
    refine bind_eq_ok_iff.mpr ⟨_, (Reader.takes_u8 _).evalAt_eq hheaps, ?_⟩
    refine bind_eq_ok_iff.mpr ⟨_, (Reader.takes_le64 _).evalAt_eq hvalid, ?_⟩
    refine bind_eq_ok_iff.mpr ⟨_, (Reader.takes_le64 _).evalAt_eq hsorted, ?_⟩
    rw [if_neg (by simp)]
    refine bind_eq_ok_iff.mpr ⟨_, hreadCounts.evalAt_eq hcounts, ?_⟩
    simp only [Option.map_some, Option.getD_some, hknown, foldl_setTable_eq, hlayout,
      Layout.heapSizes_and, List.length_map, Bool.false_eq_true, if_false, Nat.add_zero]
    exact bind_eq_ok_iff.mpr ⟨locations, hlocate, rfl⟩
  · intro location hlocation
    obtain ⟨hrows, hat⟩ := hlocated location hlocation
    exact ⟨hrows, segment location.table, hsegment location.table, hat⟩

end DebugTables

end PortablePdb
