import PortablePdb.Proofs.Checked.Layout
import PortablePdb.Proofs.Modules

namespace PortablePdb.Checked

variable {ρ : Type}

/-- Rows whose columns are read with checked operations, in the bytes behind any position. -/
class CheckedRow (ρ : Type) [Row ρ] where
  read : TableInfo → (rid : UInt32) → Reader ρ
  readsAs : ∀ (layout : Layout) (rid : UInt32),
    ReadsAs (read (.ofLayout layout) rid) (Row.read layout rid) 0 fun _ => True
  relocates : ∀ (layout : Layout) (rid : UInt32), Relocates (Row.read layout rid : Reader ρ)
  size_eq : ∀ layout, Row.size ρ layout = (Row.table ρ).rowSize layout

section Instances

open ReadsAs

instance : CheckedRow DocumentRow where
  read info rid := do
    return {
      rid
      name := ← index info.wideBlobs
      hashAlgorithm := ← index info.wideGuids
      hash := ← index info.wideBlobs
      language := ← index info.wideGuids }
  readsAs _ _ :=
    (readsAs_index _).andThen fun _ _ => (readsAs_index _).andThen fun _ _ =>
      (readsAs_index _).andThen fun _ _ => (readsAs_index _).andThen fun _ _ => pure trivial
  relocates _ _ :=
    (Relocates.index _).bind fun _ => (Relocates.index _).bind fun _ =>
      (Relocates.index _).bind fun _ => (Relocates.index _).bind_pure _
  size_eq := StoredRow.size_eq_rowSize

instance : CheckedRow MethodDebugRow where
  read info rid := do
    return {
      rid
      document := ← rowIndex info .document
      sequencePoints := ← index info.wideBlobs }
  readsAs layout _ :=
    (readsAs_rowIndex layout _).andThen fun _ _ => (readsAs_index _).andThen fun _ _ =>
      pure trivial
  relocates _ _ := (Relocates.index _).bind fun _ => (Relocates.index _).bind_pure _
  size_eq := StoredRow.size_eq_rowSize

instance : CheckedRow LocalScopeRow where
  read info rid := do
    return {
      rid
      method := ← rowIndex info .methodDef
      importScope := ← rowIndex info .importScope
      variableList := ← rowIndex info .localVariable
      constantList := ← rowIndex info .localConstant
      startOffset := ← le32
      length := ← le32 }
  readsAs layout _ :=
    (readsAs_rowIndex layout _).andThen fun _ _ => (readsAs_rowIndex layout _).andThen fun _ _ =>
      (readsAs_rowIndex layout _).andThen fun _ _ => (readsAs_rowIndex layout _).andThen fun _ _ =>
        readsAs_le32.andThen fun _ _ => readsAs_le32.andThen fun _ _ => pure trivial
  relocates _ _ :=
    (Relocates.index _).bind fun _ => (Relocates.index _).bind fun _ =>
      (Relocates.index _).bind fun _ => (Relocates.index _).bind fun _ =>
        Relocates.le32.bind fun _ => Relocates.le32.bind_pure _
  size_eq := StoredRow.size_eq_rowSize

instance : CheckedRow LocalVariableRow where
  read info rid := do
    return {
      rid
      attributes := ← le16
      index := ← le16
      name := ← index info.wideStrings }
  readsAs _ _ :=
    readsAs_le16.andThen fun _ _ => readsAs_le16.andThen fun _ _ =>
      (readsAs_index _).andThen fun _ _ => pure trivial
  relocates _ _ :=
    Relocates.le16.bind fun _ => Relocates.le16.bind fun _ => (Relocates.index _).bind_pure _
  size_eq := StoredRow.size_eq_rowSize

instance : CheckedRow ImportScopeRow where
  read info rid := do
    return {
      rid
      parent := ← rowIndex info .importScope
      imports := ← index info.wideBlobs }
  readsAs layout _ :=
    (readsAs_rowIndex layout _).andThen fun _ _ => (readsAs_index _).andThen fun _ _ =>
      pure trivial
  relocates _ _ := (Relocates.index _).bind fun _ => (Relocates.index _).bind_pure _
  size_eq := StoredRow.size_eq_rowSize

instance : CheckedRow StateMachineRow where
  read info rid := do
    return {
      rid
      moveNextMethod := ← rowIndex info .methodDef
      kickoffMethod := ← rowIndex info .methodDef }
  readsAs layout _ :=
    (readsAs_rowIndex layout _).andThen fun _ _ => (readsAs_rowIndex layout _).andThen fun _ _ =>
      pure trivial
  relocates _ _ := (Relocates.index _).bind fun _ => (Relocates.index _).bind_pure _
  size_eq := StoredRow.size_eq_rowSize

instance : CheckedRow CustomInfoRow where
  read info rid := do
    return {
      rid
      parent := ← codedIndex info .hasCustomDebugInformation
      kind := ← index info.wideGuids
      value := ← index info.wideBlobs }
  readsAs layout _ :=
    (readsAs_codedIndex layout _).andThen fun _ _ => (readsAs_index _).andThen fun _ _ =>
      (readsAs_index _).andThen fun _ _ => pure trivial
  relocates layout _ :=
    (relocates_codedIndex layout _).bind fun _ => (Relocates.index _).bind fun _ =>
      (Relocates.index _).bind_pure _
  size_eq := StoredRow.size_eq_rowSize

end Instances

/-- Adds the rows from a position on, up to one whose columns cannot be read. -/
def addRows [Row ρ] [CheckedRow ρ] (info : TableInfo) (data : Bytes) :
    (left current position : Nat) → Array ρ → Except Error (Array ρ)
  | 0, _, _, rows => .ok rows
  | left + 1, current, position, rows => do
    let rid ← add .word current 1
    let _ ← token (Row.table ρ) rid.toUInt32
    match (CheckedRow.read info rid.toUInt32).runAt data position with
    | .ok row next => addRows info data left rid next (rows.push row)
    | .error error _ => if error = .fault then .error .fault else .ok rows

/-- The table of a type of rows, in the bytes behind its start; one that is not present, or not all
there, is none. -/
def table? (ρ : Type) [Row ρ] (stream : TablesStream) : Except Error (Option (RowTable ρ)) := do
  match stream.location? (Row.table ρ) with
  | none => return none
  | some location =>
    let data ← sliceFrom stream.data location.start
    let rowSize ← (TableInfo.ofLayout stream.layout).rowSize .byte (Row.table ρ)
    let size ← mul .long location.rows.toNat rowSize
    return if data.size < size then none else some ⟨data, 0, location.rows, stream.layout⟩

/-- The rows of a table. -/
def rows (ρ : Type) [Row ρ] [CheckedRow ρ] (stream : TablesStream) : Except Error (Array ρ) := do
  match ← table? ρ stream with
  | none => return #[]
  | some table => addRows (.ofLayout table.layout) table.data table.count.toNat 0 0 #[]

/-- The row with a number, if the table has it and its columns can be read. -/
def row? [Row ρ] [CheckedRow ρ] (table : RowTable ρ) (rid : UInt32) : Except Error (Option ρ) := do
  if rid = 0 || table.count < rid then return none
  let before ← sub rid.toNat 1
  let rowSize ← (TableInfo.ofLayout table.layout).rowSize .byte (Row.table ρ)
  let position ← mul .long before rowSize
  let _ ← token (Row.table ρ) rid
  match (CheckedRow.read (.ofLayout table.layout) rid).runAt table.data position with
  | .ok row _ => return some row
  | .error error _ => if error = .fault then throw .fault else return none

theorem addRows_eq [Row ρ] [CheckedRow ρ] (table : RowTable ρ)
    (hsize : table.data.size < memory) (hstart : table.start ≤ table.data.size)
    {left current position : Nat} (hleft : current + left < 0x100000000)
    (hposition : position ≤ (table.data.extract table.start).size) (rows : Array ρ) :
    addRows (.ofLayout table.layout) (table.data.extract table.start) left current position rows =
      .ok (table.addRows left (current + 1) (table.start + position) rows) := by
  induction left generalizing current position rows with
  | zero => rfl
  | succ left ih =>
    have hrun := CheckedRow.relocates (ρ := ρ) table.layout (current + 1).toUInt32 table.data
      table.start position hstart
    obtain ⟨heq, hmoves⟩ := CheckedRow.readsAs (ρ := ρ) table.layout (current + 1).toUInt32
      (table.data.extract table.start) position (by simp only [Array.size_extract]; omega) hposition
    rw [addRows, add_eq (by simp only [Word.limit]; omega), ok_bind, token_eq, ok_bind, heq,
      RowTable.addRows, hrun]
    cases hread : (Row.read table.layout (current + 1).toUInt32 : Reader ρ).runAt
        (table.data.extract table.start) position with
    | ok row next =>
      rw [hread] at hmoves
      exact ih (by omega) hmoves.2.2 _
    | error error next =>
      rw [hread] at hmoves
      exact if_neg hmoves

/-- The bytes of a table behind its start hold all its rows. -/
theorem table?_eq [Row ρ] [CheckedRow ρ] {stream : TablesStream} (hsize : stream.data.size < memory)
    (hbounded : stream.IsBounded) :
    table? ρ stream = .ok ((stream.table? ρ).map fun table =>
        ⟨table.data.extract table.start, 0, table.count, table.layout⟩) ∧
      ∀ table, stream.table? ρ = some table →
        table.data = stream.data ∧ table.start + table.size ≤ table.data.size := by
  unfold table? TablesStream.table?
  cases hlocation : stream.location? (Row.table ρ) with
  | none => exact ⟨rfl, nofun⟩
  | some location =>
    obtain ⟨hmem, htable⟩ := TablesStream.mem_of_location? hlocation
    have hle := hbounded location hmem
    rw [htable] at hle
    have hfits : location.rows.toNat * (Row.table ρ).rowSize stream.layout < Word.long.limit := by
      simp only [memory, Word.limit] at *
      omega
    have hshort : ¬ (stream.data.extract location.start).size <
        location.rows.toNat * (Row.table ρ).rowSize stream.layout := by
      simp only [Array.size_extract]
      omega
    rw [← CheckedRow.size_eq] at hle
    simp only [Option.bind_eq_bind, Option.bind_some]
    rw [sliceFrom_eq (by omega), ok_bind, TableInfo.rowSize_eq, ok_bind, mul_eq hfits, ok_bind,
      if_neg hshort, RowTable.ofData_of_le hle]
    refine ⟨rfl, fun table heq => ?_⟩
    cases heq
    exact ⟨rfl, hle⟩

theorem rows_eq [Row ρ] [CheckedRow ρ] {stream : TablesStream} (hsize : stream.data.size < memory)
    (hbounded : stream.IsBounded) : rows ρ stream = .ok (stream.rows ρ) := by
  obtain ⟨heq, hwithin⟩ := table?_eq (ρ := ρ) hsize hbounded
  rw [rows, heq, ok_bind, TablesStream.rows]
  cases htable : stream.table? ρ with
  | none => rfl
  | some table =>
    obtain ⟨hdata, hle⟩ := hwithin table htable
    have hcount := table.count.toNat_lt
    exact addRows_eq table (hdata ▸ hsize) (by omega) (by simp only; omega) (Nat.zero_le _) #[]

/-- The rows of a table have numbers that fit a word. -/
theorem size_rows_lt (ρ : Type) [Row ρ] (stream : TablesStream) :
    (stream.rows ρ).size < 0x100000000 :=
  (stream.size_rows_le ρ).trans_lt (UInt32.toNat_lt _)

/-- A row of a table is read from the bytes behind the start of the table. -/
theorem row?_eq [Row ρ] [CheckedRow ρ] {table : RowTable ρ} (hsize : table.data.size < memory)
    (hle : table.start + table.size ≤ table.data.size) (rid : UInt32) :
    row? ⟨table.data.extract table.start, 0, table.count, table.layout⟩ rid =
      .ok (table.row? rid) := by
  have hrowSize : table.rowSize = (Row.table ρ).rowSize table.layout := CheckedRow.size_eq _
  unfold row? RowTable.row?
  by_cases hnone : (rid = 0 || table.count < rid) = true
  · rw [if_pos hnone, if_pos hnone]
    rfl
  · rw [if_neg hnone, if_neg hnone]
    simp only [Bool.or_eq_true, decide_eq_true_eq, not_or, ← UInt32.toNat_inj,
      UInt32.lt_iff_toNat_lt, UInt32.reduceToNat] at hnone
    have hbefore : (rid.toNat - 1) * table.rowSize ≤ table.size :=
      Nat.mul_le_mul_right _ (by omega)
    have hfits : (rid.toNat - 1) * (Row.table ρ).rowSize table.layout < Word.long.limit := by
      rw [← hrowSize]
      simp only [memory, Word.limit] at *
      omega
    rw [sub_eq (by omega), ok_bind, TableInfo.rowSize_eq, ok_bind, mul_eq hfits, ok_bind, token_eq,
      ok_bind, ← hrowSize]
    obtain ⟨heq, hmoves⟩ := CheckedRow.readsAs (ρ := ρ) table.layout rid
      (table.data.extract table.start) ((rid.toNat - 1) * table.rowSize)
      (by simp only [Array.size_extract]; omega) (by simp only [Array.size_extract]; omega)
    rw [Relocates.evalAt_eq (CheckedRow.relocates table.layout rid) (by omega), Reader.evalAt, heq]
    cases hread : (Row.read table.layout rid : Reader ρ).runAt (table.data.extract table.start)
        ((rid.toNat - 1) * table.rowSize) with
    | ok row next => rfl
    | error error next =>
      rw [hread] at hmoves
      exact if_neg hmoves

/-- The row count of a table id. -/
def rowsAt (counts : RowCounts) (slot : Nat) : Except Error UInt32 :=
  item counts.toArray slot

/-- The row counts with that of one table id replaced. -/
def putRows (counts : RowCounts) (slot : Nat) (rows : UInt32) : Except Error RowCounts :=
  if hslot : slot < 64 then .ok (counts.set slot rows hslot) else .error .fault

/-- Copies the row counts of table ids. -/
def copyCounts (known : RowCounts) : (slots : List Nat) → RowCounts → Except Error RowCounts
  | [], counts => .ok counts
  | slot :: slots, counts => do
    copyCounts known slots (← putRows counts slot (← rowsAt known slot))

/-- The counts of type-system tables that a stream has from elsewhere. -/
def baseCounts : (typeSystemRows : Option RowCounts) → Except Error RowCounts
  | some known => copyCounts known (List.range 0x30) RowCounts.none
  | none => .ok RowCounts.none

/-- Reads the row counts of the tables in a mask. -/
def readCounts (isPdb : Bool) (valid : UInt64) : (slots : List Nat) → Reader (List (Table × UInt32))
  | [] => return []
  | slot :: slots => do
    let bit ← Reader.lift (shiftLeft .long 1 slot)
    if valid.toNat &&& bit ≠ 0 then
      match Table.ofId? slot with
      | none => reject (.unknownTable slot)
      | some table =>
        if isPdb && !table.isDebug then reject (.typeSystemTable table)
        let rows ← le32
        return (table, rows) :: (← readCounts isPdb valid slots)
    else readCounts isPdb valid slots

/-- Where tables stand that follow each other from a position on, if they all end by `stop`. There
is a count and a place for each table id. -/
def locate (info : TableInfo) (stop : Nat) : (position : Nat) → List (Table × UInt32) →
    Except Error (List TableLocation)
  | _, [] => .ok []
  | position, (table, rows) :: rest => do
    let _count ← item info.rows table.id
    let size ← mul .long rows.toNat (← info.rowSize .word table)
    if Word.long.limit ≤ position + size then throw .outOfBounds
    if stop < position + size then throw .outOfBounds
    within (table.id < 64) ()
    return ⟨table, position, rows⟩ :: (← locate info stop (position + size) rest)

/-- Reads a stream of tables. -/
def tablesStream (data : Bytes) (typeSystemRows : Option RowCounts) :
    Except Error TablesStream := do
  if data.size < 24 then throw .outOfBounds
  let majorVersion ← readFrom u8 data 4
  let minorVersion ← readFrom u8 data 5
  let heapSizes ← readFrom u8 data 6
  let valid ← readFrom le64 data 8
  let sorted ← readFrom le64 data 16
  if valid = 0 && typeSystemRows.isNone then reject .noTables
  let (counts, offset) ← Reader.evalAt
    (do return (← readCounts typeSystemRows.isSome valid (List.range 64), ← Reader.position))
    data 24
  let start ← add .long offset (if heapSizes &&& 0x40 != 0 then 4 else 0)
  let base ← baseCounts typeSystemRows
  let rows ← counts.foldlM (fun rows (table, count) => putRows rows table.id count) base
  let info ← TableInfo.ofRowCounts rows heapSizes
  let locations ← locate info data.size start counts
  return {
    majorVersion, minorVersion, heapSizes, valid, sorted
    layout := Layout.ofHeapSizes rows heapSizes, data, locations }

theorem putRows_eq (counts : RowCounts) (table : Table) (rows : UInt32) :
    putRows counts table.id rows = .ok (counts.setTable table rows) :=
  dif_pos table.id_lt

theorem foldlM_putRows (counts : List (Table × UInt32)) (rows : RowCounts) :
    counts.foldlM (fun rows (table, count) => putRows rows table.id count) rows =
      .ok (counts.foldl (fun rows (table, count) => rows.setTable table count) rows) := by
  induction counts generalizing rows with
  | nil => rfl
  | cons count counts ih =>
    rw [List.foldlM_cons, List.foldl_cons, ← ih]
    simp only [putRows_eq]
    rfl

/-- Row counts that were copied are the known ones, and the others are as they were. -/
theorem exists_copyCounts (known : RowCounts) {slots : List Nat}
    (hslots : ∀ slot ∈ slots, slot < 64) (counts : RowCounts) :
    ∃ copied, copyCounts known slots counts = .ok copied ∧
      ∀ slot (hslot : slot < 64),
        copied[slot] = if slot ∈ slots then known[slot] else counts[slot] := by
  induction slots generalizing counts with
  | nil => exact ⟨counts, rfl, fun slot hslot => by simp⟩
  | cons first slots ih =>
    have hfirst := hslots first List.mem_cons_self
    obtain ⟨copied, hcopied, hall⟩ := ih
      (fun slot hslot => hslots slot (List.mem_cons_of_mem first hslot))
      (counts.set first known[first] hfirst)
    refine ⟨copied, ?_, fun slot hslot => ?_⟩
    · rw [copyCounts, rowsAt, item_eq (by simpa using hfirst), ok_bind, putRows, dif_pos hfirst]
      exact hcopied
    · rw [hall slot hslot, Vector.getElem_set]
      by_cases heq : first = slot
      · subst heq
        simp
      · simp [heq, Ne.symm heq]

theorem copyCounts_eq (known : RowCounts) :
    copyCounts known (List.range 0x30) RowCounts.none =
      .ok (TablesStream.typeSystemCounts known) := by
  have hslots : ∀ slot ∈ List.range 0x30, slot < 64 := fun slot hslot =>
    Nat.lt_trans (List.mem_range.mp hslot) (by decide)
  obtain ⟨copied, hcopied, hall⟩ := exists_copyCounts known hslots RowCounts.none
  rw [hcopied]
  refine congrArg _ (Vector.ext fun slot hslot => ?_)
  rw [hall slot hslot]
  simp [TablesStream.typeSystemCounts, RowCounts.none]

theorem baseCounts_eq (typeSystemRows : Option RowCounts) :
    baseCounts typeSystemRows =
      .ok ((typeSystemRows.map TablesStream.typeSystemCounts).getD RowCounts.none) := by
  cases typeSystemRows with
  | none => rfl
  | some known => exact copyCounts_eq known

theorem and_shiftLeft_ne_zero_iff {valid : UInt64} {slot : Nat} (hslot : slot < 64) :
    valid.toNat &&& (1 <<< slot) % Word.long.limit ≠ 0 ↔ valid.toNat.testBit slot = true := by
  have hlt : 1 <<< slot < Word.long.limit := by
    rw [Nat.one_shiftLeft]
    exact Nat.pow_lt_pow_right (by omega) hslot
  rw [Nat.mod_eq_of_lt hlt, Nat.one_shiftLeft]
  constructor
  · intro hne
    by_contra hclear
    refine hne (Nat.eq_of_testBit_eq fun i => ?_)
    rw [Nat.testBit_and, Nat.testBit_two_pow, Nat.zero_testBit]
    by_cases hi : slot = i
    · subst hi
      simpa using hclear
    · simp [hi]
  · intro hset hzero
    have hbit := congrArg (Nat.testBit · slot) hzero
    simp [hset] at hbit

theorem readsAs_readCounts (isPdb : Bool) (valid : UInt64) {slots : List Nat}
    (hslots : ∀ slot ∈ slots, slot < 64) :
    ReadsAs (readCounts isPdb valid slots) (TablesStream.readCounts isPdb valid slots) 0
      fun _ => True := by
  induction slots with
  | nil => exact ReadsAs.pure trivial
  | cons slot slots ih =>
    have hslot := hslots slot List.mem_cons_self
    have hrest := ih fun other hother => hslots other (List.mem_cons_of_mem slot hother)
    refine ReadsAs.step (shiftLeft_eq hslot) ?_
    simp only [and_shiftLeft_ne_zero_iff hslot]
    refine ReadsAs.ite (fun _ => ?_) fun _ => hrest
    cases Table.ofId? slot with
    | none => exact ReadsAs.throw nofun
    | some table =>
      exact ReadsAs.guard nofun fun _ => readsAs_le32.andThen fun rows _ =>
        hrest.andThen fun counts _ => ReadsAs.pure trivial

/-- Each row count takes four bytes. -/
theorem position_readCounts (isPdb : Bool) (valid : UInt64) {slots : List Nat} {data : Bytes}
    {position next : Nat} {counts : List (Table × UInt32)}
    (hrun : (TablesStream.readCounts isPdb valid slots).runAt data position = .ok counts next) :
    next = position + 4 * counts.length := by
  induction slots generalizing position counts with
  | nil =>
    cases hrun
    rfl
  | cons slot slots ih =>
    cases hbit : valid.toNat.testBit slot with
    | false =>
      rw [TablesStream.readCounts_cons_of_clear hbit] at hrun
      exact ih hrun
    | true =>
      obtain ⟨table, rows, rest, _, _, hrest, rfl⟩ :=
        TablesStream.readCounts_cons_of_set hbit hrun
      have hnext := ih hrest
      simp only [List.length_cons]
      omega

theorem agrees_locate (layout : Layout) {stop : Nat} (hstop : stop < memory) (position : Nat)
    (counts : List (Table × UInt32)) :
    Agrees (locate (.ofLayout layout) stop position counts)
      (TablesStream.locate layout stop position counts) fun _ => True := by
  induction counts generalizing position with
  | nil => exact Agrees.ok trivial
  | cons count counts ih =>
    obtain ⟨table, rows⟩ := count
    have hbytes := TableInfo.rowSize_le layout table
    have hrows := rows.toNat_lt
    have hproduct : rows.toNat * table.rowSize layout < Word.long.limit := by
      calc rows.toNat * table.rowSize layout ≤ rows.toNat * 36 := Nat.mul_le_mul_left _ hbytes
        _ < Word.long.limit := by simp only [Word.limit]; omega
    rw [locate, TableInfo.item_rows, ok_bind, TableInfo.rowSize_eq, ok_bind, mul_eq hproduct,
      ok_bind, TablesStream.locate]
    by_cases hlong : stop < position + rows.toNat * table.rowSize layout
    · rw [if_pos hlong, if_pos hlong]
      split <;> exact Agrees.error outOfBounds_ne_fault
    · simp only [memory] at hstop
      rw [if_neg hlong, if_neg hlong, if_neg (by simp only [Word.limit]; omega)]
      exact Agrees.step (within_eq table.id_lt _) <| (ih _).bind fun rest _ => Agrees.pure trivial

/-- The row counts of a stream, and the position behind them. -/
theorem evalAt_readCounts (isPdb : Bool) (valid : UInt64) {data : Bytes} {position : Nat}
    (hsize : data.size < memory) (hle : position ≤ data.size) :
    Agrees
      (Reader.evalAt (do return (← readCounts isPdb valid (List.range 64), ← Reader.position))
        data position)
      (do
        let counts ← (TablesStream.readCounts isPdb valid (List.range 64)).evalAt data position
        return (counts, position + 4 * counts.length))
      fun result => result.2 = position + 4 * result.1.length ∧ result.2 ≤ data.size := by
  have hslots : ∀ slot ∈ List.range 64, slot < 64 := fun slot hslot => List.mem_range.mp hslot
  obtain ⟨heq, hmoves⟩ := readsAs_readCounts isPdb valid hslots data position hsize hle
  rw [Reader.evalAt, Reader.evalAt, Reader.runAt_bind, heq]
  cases hrun : (TablesStream.readCounts isPdb valid (List.range 64)).runAt data position with
  | ok counts next =>
    rw [hrun] at hmoves
    have hnext := position_readCounts isPdb valid hrun
    simp only [Reader.position, Reader.runAt_bind, Reader.runAt_get, Reader.runAt_pure, ok_bind]
    rw [← hnext]
    exact Agrees.pure ⟨hnext, hmoves.2.2⟩
  | error error next =>
    rw [hrun] at hmoves
    exact Agrees.error hmoves

theorem agrees_tablesStream {data : Bytes} (hsize : data.size < memory)
    (typeSystemRows : Option RowCounts) :
    Agrees (tablesStream data typeSystemRows) (TablesStream.read data typeSystemRows)
      fun stream => stream.IsBounded ∧ stream.data = data := by
  have hagrees : Agrees (tablesStream data typeSystemRows) (TablesStream.read data typeSystemRows)
      fun stream => stream.data = data := by
    refine Agrees.guard nofun fun hlong => ?_
    refine (readsAs_u8.readFrom Relocates.u8 hsize (by omega)).bind fun majorVersion _ => ?_
    refine (readsAs_u8.readFrom Relocates.u8 hsize (by omega)).bind fun minorVersion _ => ?_
    refine (readsAs_u8.readFrom Relocates.u8 hsize (by omega)).bind fun heapSizes _ => ?_
    refine (readsAs_le64.readFrom Relocates.le64 hsize (by omega)).bind fun valid _ => ?_
    refine (readsAs_le64.readFrom Relocates.le64 hsize (by omega)).bind fun sorted _ => ?_
    refine Agrees.guard nofun fun _ => ?_
    have hcounts := evalAt_readCounts typeSystemRows.isSome valid hsize
      (show 24 ≤ data.size by omega)
    cases hplain : (TablesStream.readCounts typeSystemRows.isSome valid (List.range 64)).evalAt
        data 24 with
    | error error =>
      rw [hplain] at hcounts
      rw [hcounts.eq]
      exact Agrees.error fun herror => hcounts.ne_fault (congrArg _ herror)
    | ok counts =>
      rw [hplain] at hcounts
      obtain ⟨-, hend⟩ := hcounts.post_of_eq_ok _ rfl
      have hextra : (if heapSizes &&& 0x40 != 0 then 4 else 0) ≤ 4 := by split <;> omega
      have hpair : _ = Except.ok (counts, 24 + 4 * counts.length) := hcounts.eq
      rw [hpair, ok_bind, ok_bind]
      simp only [memory] at hsize
      refine Agrees.step (add_eq (by simp only [Word.limit] at *; omega)) ?_
      refine Agrees.step (baseCounts_eq typeSystemRows) <| Agrees.step (foldlM_putRows counts _) <|
        Agrees.step (TableInfo.ofRowCounts_eq _ _) ?_
      exact (agrees_locate _ hsize _ counts).bind fun locations _ => Agrees.pure rfl
  exact ⟨hagrees.eq, fun stream hstream =>
    ⟨TablesStream.isBounded_of_read hstream, hagrees.post_of_eq_ok stream hstream⟩,
    hagrees.ne_fault⟩

/-- Each present table with its number of rows. The place of every table id is looked at. -/
def summary (stream : TablesStream) : Except Error (List (Table × UInt32)) := do
  let slots := (Array.range 64).map fun slot => stream.locations.find? (·.table.id == slot)
  let _ ← (List.range 64).mapM (item slots)
  return stream.summary

theorem summary_eq (stream : TablesStream) : summary stream = .ok stream.summary := by
  have hslots (slot : Nat) (hslot : slot ∈ List.range 64) :
      item ((Array.range 64).map fun slot => stream.locations.find? (·.table.id == slot)) slot =
        .ok (stream.locations.find? (·.table.id == slot)) := by
    rw [item_eq (by simpa using hslot)]
    simp
  rw [summary, mapM_eq_ok hslots]
  rfl

end PortablePdb.Checked
