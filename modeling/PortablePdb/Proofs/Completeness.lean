import Mathlib.Data.List.TakeWhile
import PortablePdb.Proofs.Contents

namespace PortablePdb

namespace Reader

variable {α β : Type}

/-- The reader succeeds wherever a number of bytes are left, and moves past them. -/
def Reads (reader : Reader α) (size : Nat) : Prop :=
  ∀ data position, position + size ≤ data.size →
    ∃ value, reader.runAt data position = .ok value (position + size)

/-- Wherever a number of bytes are left, the reader succeeds on some positions and moves past them,
and fails on the others. -/
def ReadsWhere (reader : Reader α) (size : Nat) (isReadable : Bytes → Nat → Bool) : Prop :=
  ∀ data position, position + size ≤ data.size →
    if isReadable data position then
      ∃ value, reader.runAt data position = .ok value (position + size)
    else ∃ error stop, reader.runAt data position = .error error stop

theorem Reads.readsWhere {reader : Reader α} {size : Nat} (hreader : reader.Reads size) :
    reader.ReadsWhere size fun _ _ => true := by
  intro data position hsize
  simpa using hreader data position hsize

theorem reads_pure (value : α) : (pure value : Reader α).Reads 0 :=
  fun _ _ _ => ⟨value, rfl⟩

theorem Reads.bind {reader : Reader α} {next : α → Reader β} {first second : Nat}
    (hreader : reader.Reads first) (hnext : ∀ a, (next a).Reads second) :
    (reader >>= next).Reads (first + second) := by
  intro data position hsize
  obtain ⟨a, ha⟩ := hreader data position (by omega)
  obtain ⟨b, hb⟩ := hnext a data (position + first) (by omega)
  exact ⟨b, by rw [runAt_bind, ha, ← Nat.add_assoc]; exact hb⟩

theorem Reads.map {reader : Reader α} {size : Nat} (hreader : reader.Reads size) (f : α → β) :
    (reader >>= fun value => pure (f value)).Reads size :=
  hreader.bind fun value => reads_pure (f value)

theorem runAt_natLE {width position : Nat} {data : Bytes} (hsize : position + width ≤ data.size) :
    (natLE width).runAt data position =
      .ok (Bytes.natLE (data.extract position (position + width))) (position + width) := by
  simp only [natLE, runAt_bind, runAt_bytes hsize, runAt_pure]

theorem ReadsWhere.bind {reader : Reader α} {next : α → Reader β} {first second : Nat}
    {isReadable : Bytes → Nat → Bool} (hreader : reader.ReadsWhere first isReadable)
    (hnext : ∀ a, (next a).Reads second) :
    (reader >>= next).ReadsWhere (first + second) isReadable := by
  intro data position hsize
  rw [← Nat.add_assoc] at hsize ⊢
  have hfirst := hreader data position (by omega)
  rw [runAt_bind]
  split at hfirst
  · next hreadable =>
    obtain ⟨a, ha⟩ := hfirst
    rw [if_pos hreadable, ha]
    exact hnext a data _ hsize
  · next hreadable =>
    obtain ⟨error, stop, herror⟩ := hfirst
    rw [if_neg hreadable, herror]
    exact ⟨error, stop, rfl⟩

theorem Reads.bind_where {reader : Reader α} {next : α → Reader β} {first second : Nat}
    {isReadable : Bytes → Nat → Bool} (hreader : reader.Reads first)
    (hnext : ∀ a, (next a).ReadsWhere second isReadable) :
    (reader >>= next).ReadsWhere (first + second)
      fun data position => isReadable data (position + first) := by
  intro data position hsize
  obtain ⟨a, ha⟩ := hreader data position (by omega)
  rw [← Nat.add_assoc] at hsize ⊢
  rw [runAt_bind, ha]
  exact hnext a data (position + first) hsize

theorem reads_natLE (width : Nat) : (natLE width).Reads width :=
  fun _ _ hsize => ⟨_, runAt_natLE hsize⟩

theorem reads_le16 : le16.Reads 2 :=
  (reads_natLE 2).map Nat.toUInt16

theorem reads_le32 : le32.Reads 4 :=
  (reads_natLE 4).map Nat.toUInt32

end Reader

theorem Index.reads (wide : Bool) : (Index.read wide).Reads (Index.width wide) := by
  cases wide with
  | true => exact Reader.reads_le32
  | false => exact Reader.reads_le16.map UInt16.toUInt32

theorem Bytes.natLE_extract_mod {data : Bytes} {position count : Nat} (hpos : 0 < count)
    (hsize : position + count ≤ data.size) :
    Bytes.natLE (data.extract position (position + count)) % 256 =
      (data.getD position 0).toNat := by
  have hhead : (data.extract position (position + count)).toList.head? =
      some (data.getD position 0) := by
    rw [List.head?_eq_getElem?, Array.getElem?_toList, Array.getElem?_extract,
      if_pos (by omega), Array.getD_eq_getD_getElem?, Array.getElem?_eq_getElem (by omega)]
    simp [Array.getElem?_eq_getElem (show position < data.size by omega)]
  obtain ⟨rest, hlist⟩ := List.head?_eq_some_iff.mp hhead
  rw [natLE, hlist, List.foldr_cons]
  have hbyte := (data.getD position 0).toNat_lt
  omega

/-- The lowest byte of an index is the first one in its column. -/
theorem Index.runAt_read {wide : Bool} {data : Bytes} {position : Nat}
    (hsize : position + Index.width wide ≤ data.size) :
    ∃ value, (Index.read wide).runAt data position = .ok value (position + Index.width wide) ∧
      value.toNat % 256 = (data.getD position 0).toNat := by
  have hwidth := Index.two_le_width wide
  have hbyte := Bytes.natLE_extract_mod (by omega) hsize
  have hnat := Reader.runAt_natLE hsize
  generalize Bytes.natLE (data.extract position (position + width wide)) = value at hbyte hnat
  cases wide with
  | true =>
    refine ⟨value.toUInt32, ?_, ?_⟩
    · change Reader.le32.runAt data position = _
      rw [Reader.le32, Reader.runAt_bind]
      exact hnat ▸ rfl
    · simp only [Nat.toUInt32_eq, UInt32.toNat_ofNat']
      omega
  | false =>
    refine ⟨value.toUInt16.toUInt32, ?_, ?_⟩
    · change (Reader.le16 >>= fun value => pure value.toUInt32).runAt data position = _
      rw [Reader.le16, Reader.runAt_bind, Reader.runAt_bind]
      exact hnat ▸ rfl
    · simp only [Nat.toUInt16_eq, UInt16.toNat_toUInt32, UInt16.toNat_ofNat']
      omega

/-- Rows whose columns are all numbers. -/
class PlainRow (ρ : Type) extends StoredRow ρ where
  reads : ∀ (layout : Layout) (rid : UInt32),
    (Row.read layout rid : Reader ρ).Reads (Row.size ρ layout)

section Instances

open Index

instance : PlainRow DocumentRow where
  reads layout rid := by
    have hcolumns := (reads layout.wideBlobs).bind fun name =>
      (reads layout.wideGuids).bind fun hashAlgorithm =>
        (reads layout.wideBlobs).bind fun hash => (reads layout.wideGuids).map fun language =>
          (⟨rid, name, hashAlgorithm, hash, language⟩ : DocumentRow)
    simp only [← Nat.add_assoc] at hcolumns
    exact hcolumns

instance : PlainRow MethodDebugRow where
  reads layout rid := by
    change Reader.Reads _ (layout.rowIndexBytes _ + _)
    rw [Layout.rowIndexBytes_eq]
    exact (reads _).bind fun _ => (reads _).map _

instance : PlainRow LocalScopeRow where
  reads layout rid := by
    have hcolumns := (reads (layout.isLarge .methodDef)).bind fun method =>
      (reads (layout.isLarge .importScope)).bind fun importScope =>
        (reads (layout.isLarge .localVariable)).bind fun variableList =>
          (reads (layout.isLarge .localConstant)).bind fun constantList =>
            Reader.reads_le32.bind fun startOffset => Reader.reads_le32.map fun length =>
              (⟨rid, method, importScope, variableList, constantList, startOffset, length⟩ :
                LocalScopeRow)
    simp only [← Nat.add_assoc, ← Layout.rowIndexBytes_eq] at hcolumns
    exact hcolumns

instance : PlainRow ImportScopeRow where
  reads layout rid := by
    change Reader.Reads _ (layout.rowIndexBytes _ + _)
    rw [Layout.rowIndexBytes_eq]
    exact (reads _).bind fun _ => (reads _).map _

instance : PlainRow StateMachineRow where
  reads layout rid := by
    change Reader.Reads _ (layout.rowIndexBytes _ + layout.rowIndexBytes _)
    rw [Layout.rowIndexBytes_eq]
    exact (reads _).bind fun _ => (reads _).map _

end Instances

namespace CodedIndex

/-- The tag in the first byte of a reference to the parent of a record. -/
def parentTag (data : Bytes) (position : Nat) : Nat :=
  (data.getD position 0).toNat % 32

/-- The tag in the first byte of a reference. -/
def tagAt (kind : CodedKind) (data : Bytes) (position : Nat) : Nat :=
  (data.getD position 0).toNat % kind.tagSpan

theorem tagSpan_dvd (kind : CodedKind) : kind.tagSpan ∣ 256 := by
  cases kind <;> decide

theorem decode_cases (kind : CodedKind) (value : UInt32) :
    if value.toNat % kind.tagSpan < kind.tables.length then
      ∃ index, decode kind value = .ok index
    else decode kind value = .error .outOfBounds := by
  rw [decode]
  split
  · next hlt =>
    rw [List.getElem?_eq_getElem hlt]
    exact ⟨_, rfl⟩
  · next hge =>
    rw [List.getElem?_eq_none (Nat.le_of_not_lt hge)]

/-- A reference can be read if there is a table with its tag. -/
theorem readsWhere_read (layout : Layout) (kind : CodedKind) :
    (read layout kind).ReadsWhere (Index.width (layout.codedIsLarge kind))
      fun data position => tagAt kind data position < kind.tables.length := by
  intro data position hsize
  obtain ⟨value, hvalue, hbyte⟩ := Index.runAt_read hsize
  have htag : value.toNat % kind.tagSpan = tagAt kind data position := by
    rw [tagAt, ← hbyte, Nat.mod_mod_of_dvd _ (tagSpan_dvd kind)]
  have hdecode := decode_cases kind value
  rw [read, Reader.runAt_bind, hvalue]
  simp only [htag, decide_eq_true_iff] at hdecode ⊢
  split at hdecode
  · next hlt =>
    obtain ⟨index, hindex⟩ := hdecode
    rw [if_pos hlt]
    refine ⟨index, ?_⟩
    simp only [hindex]
    rfl
  · next hge =>
    rw [if_neg hge]
    simp only [hdecode]
    exact ⟨_, _, rfl⟩

/-- The parent of a record can be read if there is a table with its tag. -/
theorem readsWhere_parent (layout : Layout) :
    (read layout .hasCustomDebugInformation).ReadsWhere
      (Index.width (layout.codedIsLarge .hasCustomDebugInformation))
      fun data position => parentTag data position < 27 :=
  readsWhere_read layout .hasCustomDebugInformation

end CodedIndex

/-- A row of custom debug information is readable if there is a table with the tag of its parent. -/
theorem readsWhere_customInfoRow (layout : Layout) (rid : UInt32) :
    (Row.read layout rid : Reader CustomInfoRow).ReadsWhere (Row.size CustomInfoRow layout)
      fun data position => CodedIndex.parentTag data position < 27 := by
  have hcolumns := (CodedIndex.readsWhere_parent layout).bind fun parent =>
    (Index.reads layout.wideGuids).bind fun kind => (Index.reads layout.wideBlobs).map fun value =>
      (⟨rid, parent, kind, value⟩ : CustomInfoRow)
  simp only [← Nat.add_assoc] at hcolumns
  exact hcolumns

theorem length_takeWhile_range_iff {p : Nat → Bool} {count : Nat} :
    ((List.range count).takeWhile p).length = count ↔ ∀ i < count, p i := by
  constructor
  · intro hlength i hi
    have hself := (List.takeWhile_prefix p).eq_of_length (hlength.trans List.length_range.symm)
    exact List.takeWhile_eq_self_iff.mp hself i (List.mem_range.mpr hi)
  · intro hall
    rw [List.takeWhile_eq_self_iff.mpr, List.length_range]
    intro i hi
    exact hall i (List.mem_range.mp hi)

namespace RowTable

variable {ρ : Type} [Row ρ] {isReadable : Bytes → Nat → Bool}

/-- Reading stops at the first row that is not readable. -/
theorem size_addRows (table : RowTable ρ)
    (hread : ∀ rid, (Row.read table.layout rid : Reader ρ).ReadsWhere table.rowSize isReadable)
    {left rid position : Nat} {before : Array ρ}
    (hsize : position + left * table.rowSize ≤ table.data.size) :
    (table.addRows left rid position before).size = before.size +
      ((List.range left).takeWhile fun i =>
        isReadable table.data (position + i * table.rowSize)).length := by
  induction left generalizing rid position before with
  | zero => simp [addRows]
  | succ left ih =>
    rw [Nat.succ_mul] at hsize
    have hfirst := hread rid.toUInt32 table.data position (by omega)
    -- The rows after the first one are numbered from it.
    have hnext (i : Nat) : position + (i + 1) * table.rowSize =
        position + table.rowSize + i * table.rowSize := by
      rw [Nat.succ_mul]
      omega
    rw [addRows, List.range_succ_eq_map, List.takeWhile_cons, List.takeWhile_map, Nat.zero_mul,
      Nat.add_zero position]
    split at hfirst
    · next hreadable =>
      obtain ⟨row, hrow⟩ := hfirst
      simp only [hrow]
      rw [ih (by omega), if_pos hreadable, Array.size_push, List.length_cons, List.length_map,
        Nat.add_assoc, Nat.add_comm 1]
      simp only [Function.comp_def, Nat.succ_eq_add_one, hnext]
    · next hreadable =>
      obtain ⟨error, stop, herror⟩ := hfirst
      simp [herror, hreadable]

theorem size_rows {table : RowTable ρ}
    (hread : ∀ rid, (Row.read table.layout rid : Reader ρ).ReadsWhere table.rowSize isReadable)
    (hsize : table.start + table.size ≤ table.data.size) :
    table.rows.size = ((List.range table.count.toNat).takeWhile fun i =>
      isReadable table.data (table.start + i * table.rowSize)).length := by
  rw [rows, table.size_addRows hread hsize]
  exact Nat.zero_add _

theorem ofData_of_le {data : Bytes} {start : Nat} {count : UInt32} {layout : Layout}
    (hsize : start + count.toNat * Row.size ρ layout ≤ data.size) :
    (ofData data start count layout : Except Error (RowTable ρ)) =
      .ok ⟨data, start, count, layout⟩ := by
  apply if_neg
  change ¬ data.size - start < count.toNat * Row.size ρ layout
  omega

end RowTable

namespace TablesStream

/-- All tables of a stream end within its data. -/
def IsBounded (stream : TablesStream) : Prop :=
  ∀ location ∈ stream.locations, location.start +
    location.rows.toNat * location.table.rowSize stream.layout ≤ stream.data.size

/-- The first table starts at the position, and the others follow behind its rows. -/
theorem locate_cons_eq_ok_iff {layout : Layout} {stop position : Nat} {table : Table}
    {rows : UInt32} {counts : List (Table × UInt32)} {locations : List TableLocation} :
    locate layout stop position ((table, rows) :: counts) = .ok locations ↔
      position + rows.toNat * table.rowSize layout ≤ stop ∧ ∃ later,
        locate layout stop (position + rows.toNat * table.rowSize layout) counts = .ok later ∧
          ⟨table, position, rows⟩ :: later = locations := by
  rw [locate]
  simp only [guard_eq_ok_iff, bind_eq_ok_iff, pure_eq_ok_iff, Nat.not_lt]

theorem mem_locate {layout : Layout} {stop position : Nat} {counts : List (Table × UInt32)}
    {locations : List TableLocation}
    (hlocate : locate layout stop position counts = .ok locations) :
    ∀ location ∈ locations,
      location.start + location.rows.toNat * location.table.rowSize layout ≤ stop := by
  induction counts generalizing position locations with
  | nil =>
    cases hlocate
    nofun
  | cons count counts ih =>
    obtain ⟨hfits, later, hlater, rfl⟩ := locate_cons_eq_ok_iff.mp hlocate
    intro location hlocation
    rcases List.mem_cons.mp hlocation with rfl | hlocation
    · exact hfits
    · exact ih hlater location hlocation

/-- The header of a stream that is read, its row counts, and how they lead to widths of columns and
to places of tables. -/
theorem read_eq_ok {data : Bytes} {typeSystemRows : Option RowCounts} {stream : TablesStream}
    (hread : read data typeSystemRows = .ok stream) :
    stream.data = data ∧ Reader.u8.evalAt data 6 = .ok stream.heapSizes ∧
      Reader.le64.evalAt data 8 = .ok stream.valid ∧ ∃ counts next,
        (readCounts typeSystemRows.isSome stream.valid (List.range 64)).runAt data 24 =
          .ok counts next ∧
        stream.layout = .ofHeapSizes
          (counts.foldl (fun rows (table, count) => rows.setTable table count)
            ((typeSystemRows.map typeSystemCounts).getD RowCounts.none)) stream.heapSizes ∧
        locate stream.layout data.size
          (24 + 4 * counts.length + if stream.heapSizes &&& 0x40 != 0 then 4 else 0) counts =
            .ok stream.locations := by
  obtain ⟨_, hread⟩ := guard_eq_ok_iff.mp hread
  obtain ⟨_, _, hread⟩ := bind_eq_ok_iff.mp hread
  obtain ⟨_, _, hread⟩ := bind_eq_ok_iff.mp hread
  obtain ⟨heapSizes, hheapSizes, hread⟩ := bind_eq_ok_iff.mp hread
  obtain ⟨valid, hvalid, hread⟩ := bind_eq_ok_iff.mp hread
  obtain ⟨_, _, hread⟩ := bind_eq_ok_iff.mp hread
  obtain ⟨_, hread⟩ := guard_eq_ok_iff.mp hread
  obtain ⟨counts, hcounts, hread⟩ := bind_eq_ok_iff.mp hread
  obtain ⟨locations, hlocate, hread⟩ := bind_eq_ok_iff.mp hread
  cases pure_eq_ok_iff.mp hread
  refine ⟨rfl, hheapSizes, hvalid, counts, ?_⟩
  unfold Reader.evalAt at hcounts
  split at hcounts
  · next next hrun =>
    cases hcounts
    exact ⟨next, hrun, rfl, hlocate⟩
  · cases hcounts

theorem isBounded_of_read {data : Bytes} {typeSystemRows : Option RowCounts} {stream : TablesStream}
    (hstream : read data typeSystemRows = .ok stream) : stream.IsBounded := by
  obtain ⟨rfl, _, _, _, _, _, _, hlocate⟩ := read_eq_ok hstream
  exact mem_locate hlocate

/-- Where a row of a table starts. -/
def rowStart (stream : TablesStream) (table : Table) (i : Nat) : Nat :=
  ((stream.location? table).map TableLocation.start).getD 0 + i * table.rowSize stream.layout

variable {stream : TablesStream}

theorem mem_of_location? {table : Table} {location : TableLocation}
    (hlocation : stream.location? table = some location) :
    location ∈ stream.locations ∧ location.table = table :=
  ⟨List.mem_of_find?_eq_some hlocation, by simpa using List.find?_some hlocation⟩

/-- A table of a bounded stream whose rows are as long as its columns lies within the data. -/
theorem table?_eq_some {ρ : Type} [Row ρ] (hbounded : stream.IsBounded)
    (hschema : Row.size ρ stream.layout = (Row.table ρ).rowSize stream.layout)
    {location : TableLocation} (hlocation : stream.location? (Row.table ρ) = some location) :
    stream.table? ρ = some ⟨stream.data, location.start, location.rows, stream.layout⟩ ∧
      location.start + location.rows.toNat * Row.size ρ stream.layout ≤ stream.data.size := by
  obtain ⟨hmem, htable⟩ := mem_of_location? hlocation
  have hle := hbounded location hmem
  rw [htable, ← hschema] at hle
  refine ⟨?_, hle⟩
  rw [table?, hlocation]
  simp only [Option.bind_eq_bind, Option.bind_some]
  rw [RowTable.ofData_of_le hle]
  rfl

/-- The rows of a table are those in front of the first one that is not readable. -/
theorem size_rows_of_schema {ρ : Type} [Row ρ] {isReadable : Bytes → Nat → Bool}
    (hbounded : stream.IsBounded)
    (hschema : Row.size ρ stream.layout = (Row.table ρ).rowSize stream.layout)
    (hread : ∀ rid, (Row.read stream.layout rid : Reader ρ).ReadsWhere
      (Row.size ρ stream.layout) isReadable) :
    (stream.rows ρ).size = ((List.range (stream.rowCount (Row.table ρ)).toNat).takeWhile fun i =>
      isReadable stream.data (stream.rowStart (Row.table ρ) i)).length := by
  cases hlocation : stream.location? (Row.table ρ) with
  | none => simp [rows, table?, rowCount, hlocation]
  | some location =>
    obtain ⟨htable?, hle⟩ := table?_eq_some hbounded hschema hlocation
    rw [rows, htable?, Option.map_some, Option.getD_some, RowTable.size_rows hread hle]
    simp only [RowTable.rowSize, hschema, rowCount, rowStart, hlocation, Option.map_some,
      Option.getD_some]

theorem size_rows {ρ : Type} [StoredRow ρ] {isReadable : Bytes → Nat → Bool}
    (hbounded : stream.IsBounded)
    (hread : ∀ rid, (Row.read stream.layout rid : Reader ρ).ReadsWhere
      (Row.size ρ stream.layout) isReadable) :
    (stream.rows ρ).size = ((List.range (stream.rowCount (Row.table ρ)).toNat).takeWhile fun i =>
      isReadable stream.data (stream.rowStart (Row.table ρ) i)).length :=
  size_rows_of_schema hbounded (StoredRow.size_eq_rowSize _) hread

/-- No row of numbers is lost. -/
theorem size_rows_eq {ρ : Type} [PlainRow ρ] (hbounded : stream.IsBounded) :
    (stream.rows ρ).size = (stream.rowCount (Row.table ρ)).toNat := by
  rw [size_rows hbounded fun rid => (PlainRow.reads stream.layout rid).readsWhere,
    length_takeWhile_range_iff]
  exact fun _ _ => rfl

/-- The tag of the parent of a record. -/
def parentTag (stream : TablesStream) (i : Nat) : Nat :=
  CodedIndex.parentTag stream.data (stream.rowStart .customDebugInformation i)

theorem lookup_summary_eq_map (stream : TablesStream) (table : Table) :
    stream.summary.lookup table = (stream.location? table).map TableLocation.rows := by
  rw [summary, location?]
  induction stream.locations with
  | nil => rfl
  | cons location locations ih =>
    rw [List.map_cons, List.lookup_cons, List.find?_cons, BEq.comm]
    cases location.table == table with
    | true => rfl
    | false => exact ih

/-- The row counts of the summary are those of the stream. -/
theorem lookup_summary (stream : TablesStream) (table : Table) :
    (stream.summary.lookup table).getD 0 = stream.rowCount table := by
  rw [lookup_summary_eq_map, rowCount]

end TablesStream

namespace Container

/-- The stream of tables in the bytes of a container. -/
def tablesStream (data : Bytes) : Except Error TablesStream := do
  let root ← Root.read data
  let some head := root.streamData? data streamName | reject .noPdbStream
  let some tables := (root.streamData? data "#~").orElse fun () => root.streamData? data "#-"
    | reject .pdbWithoutTables
  let ⟨_, _, typeSystemRows⟩ ← readHead.eval head
  TablesStream.read tables (some typeSystemRows)

theorem size_of_mapM {α β : Type} {f : α → Except Error β} {xs : Array α} {ys : Array β}
    (hys : xs.mapM f = .ok ys) : ys.size = xs.size :=
  (forall₂_of_array_mapM hys).length_eq.symm

/-- What is read from a container has an entry for each row that is read from its stream. -/
theorem ofBytes_eq_ok {data : Bytes} {container : Container}
    (hdata : ofBytes data = .ok container) :
    ∃ stream, tablesStream data = .ok stream ∧ stream.IsBounded ∧
      container.tables = stream.summary ∧
      container.documents.size = (stream.rows DocumentRow).size ∧
      container.methods.size = (stream.rows MethodDebugRow).size ∧
      container.localScopes.size = (stream.rows LocalScopeRow).size ∧
      container.importScopes.size = (stream.rows ImportScopeRow).size ∧
      container.machines.size = (stream.rows StateMachineRow).size ∧
      container.info.size = (stream.rows CustomInfoRow).size := by
  unfold ofBytes at hdata
  obtain ⟨root, hroot, hdata⟩ := bind_eq_ok_iff.mp hdata
  cases hhead : root.streamData? data streamName with
  | none =>
    simp only [hhead] at hdata
    cases hdata
  | some head =>
  cases htables : (root.streamData? data "#~").orElse fun () => root.streamData? data "#-" with
  | none =>
    simp only [hhead, htables] at hdata
    cases hdata
  | some tables =>
  simp only [hhead, htables] at hdata
  obtain ⟨_, _, hdata⟩ := bind_eq_ok_iff.mp hdata
  obtain ⟨_, _, hdata⟩ := bind_eq_ok_iff.mp hdata
  obtain ⟨_, _, hdata⟩ := bind_eq_ok_iff.mp hdata
  obtain ⟨known, hknown, hdata⟩ := bind_eq_ok_iff.mp hdata
  obtain ⟨stream, hstream, hdata⟩ := bind_eq_ok_iff.mp hdata
  obtain ⟨documents, hdocuments, hdata⟩ := bind_eq_ok_iff.mp hdata
  obtain ⟨methods, hmethods, hdata⟩ := bind_eq_ok_iff.mp hdata
  obtain ⟨localScopes, hlocalScopes, hdata⟩ := bind_eq_ok_iff.mp hdata
  obtain ⟨importScopes, himportScopes, hdata⟩ := bind_eq_ok_iff.mp hdata
  obtain ⟨info, hinfo, hdata⟩ := bind_eq_ok_iff.mp hdata
  rw [← pure_eq_ok_iff.mp hdata]
  refine ⟨stream, ?_, TablesStream.isBounded_of_read hstream, rfl, ?_, size_of_mapM hmethods, ?_,
    size_of_mapM himportScopes, Array.size_map, size_of_mapM hinfo⟩
  · refine bind_eq_ok_iff.mpr ⟨root, hroot, ?_⟩
    simp only [hhead, htables]
    exact bind_eq_ok_iff.mpr ⟨known, hknown, hstream⟩
  · rw [← Array.foldl_toList, size_foldl_addSource, size_of_mapM hdocuments]
  · rw [size_of_mapM hlocalScopes, Array.size_zipIdx]

/-- A container has an entry for each row that it declares, if there is a table with the tag of the
parent of each record. Otherwise it lacks the first record without one and all that follow it. -/
theorem ofBytes_counts {data : Bytes} {container : Container}
    (hdata : ofBytes data = .ok container) :
    ∃ stream, tablesStream data = .ok stream ∧
      container.documents.size = (container.rowCount .document).toNat ∧
      container.methods.size = (container.rowCount .methodDebugInformation).toNat ∧
      container.localScopes.size = (container.rowCount .localScope).toNat ∧
      container.importScopes.size = (container.rowCount .importScope).toNat ∧
      container.machines.size = (container.rowCount .stateMachineMethod).toNat ∧
      container.info.size =
        ((List.range (container.rowCount .customDebugInformation).toNat).takeWhile
          fun i => stream.parentTag i < 27).length ∧
      (container.info.size = (container.rowCount .customDebugInformation).toNat ↔
        ∀ i < (container.rowCount .customDebugInformation).toNat, stream.parentTag i < 27) := by
  obtain ⟨stream, hstream, hbounded, htables, hdocuments, hmethods, hlocalScopes, himportScopes,
    hmachines, hinfo⟩ := ofBytes_eq_ok hdata
  have hcount (table : Table) : container.rowCount table = stream.rowCount table := by
    rw [rowCount, htables, stream.lookup_summary]
  have hsize : container.info.size =
      ((List.range (container.rowCount .customDebugInformation).toNat).takeWhile
        fun i => stream.parentTag i < 27).length := by
    rw [hinfo, TablesStream.size_rows hbounded (readsWhere_customInfoRow stream.layout), hcount]
    rfl
  have hplain {ρ : Type} [PlainRow ρ] :
      (stream.rows ρ).size = (container.rowCount (Row.table ρ)).toNat := by
    rw [TablesStream.size_rows_eq hbounded, hcount]
  refine ⟨stream, hstream, hdocuments.trans hplain, hmethods.trans hplain,
    hlocalScopes.trans hplain, himportScopes.trans hplain, hmachines.trans hplain, hsize, ?_⟩
  rw [hsize, length_takeWhile_range_iff]
  simp only [decide_eq_true_iff]

/-- A container of one record whose parent has a tag. -/
def oneRecord (tag : UInt8) : Except Error Bytes :=
  Root.encode "PDB v1.0" [("#Pdb", Bytes.zeros 32), ("#~",
    Bytes.le32 0 ++ #[2, 0, 0, 1] ++ Bytes.le64 (Table.mask .customDebugInformation) ++
      Bytes.le64 0 ++ Bytes.le32 1 ++ #[tag, 0, 0, 0, 0, 0])]

theorem ofBytes_counts_oneRecord : ∃ data container, oneRecord 0 = .ok data ∧
    ofBytes data = .ok container ∧ container.rowCount .customDebugInformation = 1 ∧
      container.info.size = 1 := by
  have htag : ((oneRecord 0 >>= tablesStream).toOption).map (·.parentTag 0) = some 0 := by
    decide +kernel
  have hcount : ((oneRecord 0 >>= ofBytes).toOption).map
      (·.rowCount .customDebugInformation) = some 1 := by
    decide +kernel
  obtain ⟨container, hcontainer, hcount⟩ := exists_ok_of_toOption_map hcount
  obtain ⟨data, hdata, hcontainer⟩ := bind_eq_ok_iff.mp hcontainer
  obtain ⟨stream, hstream, _, _, _, _, _, _, hcomplete⟩ := ofBytes_counts hcontainer
  obtain ⟨_, hread, htag⟩ := exists_ok_of_toOption_map htag
  rw [hdata] at hread
  obtain rfl := Except.ok.inj (hstream.symm.trans hread)
  refine ⟨data, container, hdata, hcontainer, hcount, ?_⟩
  rw [hcount] at hcomplete
  apply hcomplete.mpr
  intro i hi
  obtain rfl : i = 0 := Nat.lt_one_iff.mp hi
  rw [htag]
  decide

/-- A record whose parent has the tag of no table is lost, and the container is read without it. -/
theorem ofBytes_drops_record : ∃ data container, oneRecord 27 = .ok data ∧
    ofBytes data = .ok container ∧ container.rowCount .customDebugInformation = 1 ∧
      container.info.size = 0 := by
  have hcounts : ((oneRecord 27 >>= ofBytes).toOption).map (fun container =>
      (container.rowCount .customDebugInformation, container.info.size)) = some (1, 0) := by
    decide +kernel
  obtain ⟨container, hcontainer, hcounts⟩ := exists_ok_of_toOption_map hcounts
  obtain ⟨data, hdata, hcontainer⟩ := bind_eq_ok_iff.mp hcontainer
  obtain ⟨hcount, hsize⟩ := Prod.ext_iff.mp hcounts
  exact ⟨data, container, hdata, hcontainer, hcount, hsize⟩

end Container

end PortablePdb
