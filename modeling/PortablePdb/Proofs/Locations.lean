import Mathlib.Data.List.Chain
import PortablePdb.Proofs.Schema

namespace PortablePdb

namespace TableLocation

variable {layout : Layout}

/-- The position behind the rows of a table. -/
def stop (layout : Layout) (location : TableLocation) : Nat :=
  location.start + location.rows.toNat * location.table.rowSize layout

/-- Whether the byte at a position belongs to the rows of a table. -/
def Covers (layout : Layout) (location : TableLocation) (position : Nat) : Prop :=
  location.start ≤ position ∧ position < location.stop layout

theorem not_covers_of_stop_le {first second : TableLocation}
    (hle : first.stop layout ≤ second.start) (position : Nat)
    (hfirst : first.Covers layout position) : ¬ second.Covers layout position :=
  fun hsecond => Nat.lt_irrefl position (Nat.lt_of_lt_of_le hfirst.2 (hle.trans hsecond.1))

/-- Tables follow each other from a position on: the first one starts there, and every other one
where the one in front of it ends, so that no byte belongs to two of them. -/
structure Follow (layout : Layout) (position : Nat) (locations : List TableLocation) : Prop where
  head_start : ∀ location ∈ locations.head?, location.start = position
  le_start : ∀ location ∈ locations, position ≤ location.start
  consecutive : locations.IsChain fun first second => second.start = first.stop layout
  disjoint : locations.Pairwise fun first second =>
    ∀ byte, first.Covers layout byte → ¬ second.Covers layout byte

end TableLocation

namespace TablesStream

section Counts

variable {isPdb : Bool} {valid : UInt64} {slots : List Nat} {data : Bytes} {position stop : Nat}
  {counts : List (Table × UInt32)}

/-- The tables whose counts are read are those of the mask. -/
theorem map_fst_of_readCounts
    (hcounts : (readCounts isPdb valid slots).runAt data position = .ok counts stop) :
    counts.map (·.1) = Table.listed valid slots := by
  induction slots generalizing position counts with
  | nil =>
    cases hcounts
    rfl
  | cons slot slots ih =>
    cases hbit : valid.toNat.testBit slot with
    | false =>
      rw [readCounts_cons_of_clear hbit] at hcounts
      rw [Table.listed_cons_of_clear hbit, ih hcounts]
    | true =>
      obtain ⟨table, rows, rest, htable, _, hrest, rfl⟩ := readCounts_cons_of_set hbit hcounts
      rw [Table.listed_cons_of_set hbit htable, List.map_cons, ih hrest]

/-- Each bit of the mask has a count. -/
theorem length_of_readCounts
    (hcounts : (readCounts isPdb valid slots).runAt data position = .ok counts stop) :
    counts.length = slots.countP valid.toNat.testBit := by
  induction slots generalizing position counts with
  | nil =>
    cases hcounts
    rfl
  | cons slot slots ih =>
    cases hbit : valid.toNat.testBit slot with
    | false =>
      rw [readCounts_cons_of_clear hbit] at hcounts
      rw [List.countP_cons_of_neg (by simp [hbit]), ih hcounts]
    | true =>
      obtain ⟨table, rows, rest, _, _, hrest, rfl⟩ := readCounts_cons_of_set hbit hcounts
      rw [List.countP_cons_of_pos hbit, List.length_cons, ih hrest]

/-- The count of a table stands behind the counts of the tables with lower ids. -/
theorem evalAt_of_readCounts {first number : Nat}
    (hcounts : (readCounts isPdb valid (List.range' first number)).runAt data position =
      .ok counts stop) :
    ∀ count ∈ counts, first ≤ count.1.id ∧ Reader.le32.evalAt data
      (position + 4 * (List.range' first (count.1.id - first)).countP valid.toNat.testBit) =
        .ok count.2 := by
  induction number generalizing first position counts with
  | zero =>
    cases hcounts
    nofun
  | succ number ih =>
    rw [List.range'_succ] at hcounts
    -- The ids below that of a later table are the first one and those behind it.
    have hlower {id : Nat} (hid : first + 1 ≤ id) :
        List.range' first (id - first) = first :: List.range' (first + 1) (id - (first + 1)) := by
      rw [← List.range'_succ]
      congr 1
      omega
    intro count hcount
    cases hbit : valid.toNat.testBit first with
    | false =>
      rw [readCounts_cons_of_clear hbit] at hcounts
      obtain ⟨hid, hrows⟩ := ih hcounts count hcount
      refine ⟨by omega, ?_⟩
      rwa [hlower hid, List.countP_cons_of_neg (by simp [hbit])]
    | true =>
      obtain ⟨table, rows, rest, htable, hfirst, hrest, rfl⟩ := readCounts_cons_of_set hbit hcounts
      obtain rfl | hcount := List.mem_cons.mp hcount
      · have hid : table.id = first := Table.id_of_ofId? htable
        refine ⟨hid.ge, ?_⟩
        simp [Reader.evalAt, hid, hfirst]
      · obtain ⟨hid, hrows⟩ := ih hrest count hcount
        refine ⟨by omega, ?_⟩
        rwa [hlower hid, List.countP_cons_of_pos hbit, Nat.mul_add, Nat.mul_one,
          Nat.add_comm (4 * _), ← Nat.add_assoc]

end Counts

theorem follow_of_locate {layout : Layout} {stop position : Nat}
    {counts : List (Table × UInt32)} {locations : List TableLocation}
    (hlocate : locate layout stop position counts = .ok locations) :
    TableLocation.Follow layout position locations := by
  induction counts generalizing position locations with
  | nil =>
    cases hlocate
    exact ⟨nofun, nofun, .nil, .nil⟩
  | cons count counts ih =>
    obtain ⟨_, later, hlater, rfl⟩ := locate_cons_eq_ok_iff.mp hlocate
    have hfollow := ih hlater
    refine ⟨?_, ?_, hfollow.consecutive.cons hfollow.head_start, .cons ?_ hfollow.disjoint⟩
    · rintro location ⟨⟩
      rfl
    · intro location hlocation
      obtain rfl | hlocation := List.mem_cons.mp hlocation
      · exact Nat.le_refl _
      · exact (Nat.le_add_right _ _).trans (hfollow.le_start location hlocation)
    · exact fun location hlocation =>
        TableLocation.not_covers_of_stop_le (hfollow.le_start location hlocation)

/-- The position behind the row counts, of which there is one for each bit of the mask. -/
def countsStop (stream : TablesStream) : Nat :=
  24 + 4 * stream.tableCount

/-- The position of the first row. If a flag says so, four bytes in front of it are not used. -/
def rowsStart (stream : TablesStream) : Nat :=
  stream.countsStop + if stream.heapSizes &&& 0x40 != 0 then 4 else 0

/-- The row count that a stream declares for a table that is present. It stands behind the counts of
the tables with lower ids. -/
def declaredRows (stream : TablesStream) (table : Table) : Except Error UInt32 :=
  Reader.le32.evalAt stream.data
    (24 + 4 * (List.range table.id).countP stream.valid.toNat.testBit)

/-- The row count of a table that is not present: none, but for the tables of the type system that a
debug container knows from elsewhere. -/
def absentRows (typeSystemRows : Option RowCounts) (table : Table) : UInt32 :=
  match typeSystemRows with
  | some known => if table.isDebug then 0 else known.ofTable table
  | none => 0

/-- The widths of columns come from the heap flags and from the row counts of all tables. -/
structure MeasuresColumns (stream : TablesStream) (typeSystemRows : Option RowCounts) : Prop where
  layout_eq : stream.layout = .ofHeapSizes stream.layout.rows stream.heapSizes
  rows_of_present : ∀ table, stream.hasTable table = true →
    stream.declaredRows table = .ok (stream.layout.rows.ofTable table)
  rows_of_absent : ∀ table, stream.hasTable table = false →
    stream.layout.rows.ofTable table = absentRows typeSystemRows table

/-- The tables of the mask are located with their declared row counts. They follow each other in the
order of their ids behind all row counts, and end within the data. -/
structure LocatesTables (stream : TablesStream) : Prop where
  present_iff : ∀ table, (∃ location ∈ stream.locations, location.table = table) ↔
    stream.hasTable table = true
  ascending : stream.locations.Pairwise fun first second => first.table.id < second.table.id
  declared : ∀ location ∈ stream.locations,
    stream.declaredRows location.table = .ok location.rows
  follow : TableLocation.Follow stream.layout stream.rowsStart stream.locations
  countsStop_le : ∀ location ∈ stream.locations, stream.countsStop ≤ location.start
  stop_le : ∀ location ∈ stream.locations, location.stop stream.layout ≤ stream.data.size

/-- Rows of a type are found if and only if their table is present. They are as many as the stream
declares, and take the bytes where the table is located. -/
structure FindsRows (stream : TablesStream) (ρ : Type) [Row ρ] : Prop where
  isSome_iff : (stream.table? ρ).isSome = true ↔ stream.hasTable (Row.table ρ) = true
  of_eq_some : ∀ table, stream.table? ρ = some table →
    table.data = stream.data ∧ table.layout = stream.layout ∧
    stream.declaredRows (Row.table ρ) = .ok table.count ∧
    ∃ location ∈ stream.locations, location.table = Row.table ρ ∧
      table.start = location.start ∧ table.start + table.size = location.stop stream.layout

variable {stream : TablesStream} {data : Bytes} {typeSystemRows : Option RowCounts}

theorem locatesTables_of_read (hread : read data typeSystemRows = .ok stream) :
    stream.LocatesTables := by
  obtain ⟨rfl, _, _, counts, next, hcounts, _, hlocate⟩ := read_eq_ok hread
  have hsummary : stream.summary = counts := summary_of_locate hlocate
  have hlength : counts.length = stream.tableCount := length_of_readCounts hcounts
  rw [hlength] at hlocate
  have hfollow : TableLocation.Follow stream.layout stream.rowsStart stream.locations :=
    follow_of_locate hlocate
  refine {
    present_iff := fun table => ?present
    ascending := ?ascending
    declared := fun location hlocation => ?declared
    follow := hfollow
    countsStop_le := fun location hlocation =>
      (Nat.le_add_right _ _).trans (hfollow.le_start location hlocation)
    stop_le := isBounded_of_read hread }
  case present =>
    have htables := map_fst_of_readCounts hcounts
    rw [Table.listed_range, ← hsummary, summary, List.map_map] at htables
    simpa [hasTable, Table.mem_all] using congrArg (table ∈ ·) htables
  case ascending =>
    have hids := List.pairwise_lt_range.sublist (sublist_readCounts hcounts)
    rwa [← hsummary, summary, List.map_map, List.pairwise_map] at hids
  case declared =>
    rw [List.range_eq_range'] at hcounts
    obtain ⟨_, hrows⟩ := evalAt_of_readCounts hcounts (location.table, location.rows)
      (hsummary ▸ List.mem_map_of_mem hlocation)
    rwa [Nat.sub_zero, ← List.range_eq_range'] at hrows

theorem ofTable_base (typeSystemRows : Option RowCounts) (table : Table) :
    ((typeSystemRows.map typeSystemCounts).getD RowCounts.none).ofTable table =
      absentRows typeSystemRows table := by
  cases typeSystemRows with
  | none => exact RowCounts.ofTable_none table
  | some known =>
    refine (get_typeSystemCounts known ⟨table.id, table.id_lt⟩).trans ?_
    have hdebug : table.id < 0x30 ↔ ¬ table.isDebug = true := by simp [Table.isDebug]
    simp only [hdebug, ite_not]
    rfl

theorem LocatesTables.isSome_location?_iff (hlocates : stream.LocatesTables) (table : Table) :
    (stream.location? table).isSome = true ↔ stream.hasTable table = true := by
  rw [← hlocates.present_iff, location?, List.find?_isSome]
  simp

theorem measuresColumns_of_read (hread : read data typeSystemRows = .ok stream) :
    stream.MeasuresColumns typeSystemRows := by
  obtain ⟨_, _, _, counts, _, _, hlayout, hlocate⟩ := read_eq_ok hread
  have hsummary : stream.summary = counts := summary_of_locate hlocate
  have hlocates := locatesTables_of_read hread
  have hrows (table : Table) : stream.layout.rows.ofTable table =
      ((stream.location? table).map TableLocation.rows).getD (absentRows typeSystemRows table) := by
    rw [hlayout, ← ofTable_base, ← lookup_summary_eq_map, ← hsummary]
    exact RowCounts.ofTable_foldl_setTable (nodup_summary hread) _ table
  refine ⟨by rw [hlayout]; rfl, fun table hpresent => ?_, fun table habsent => ?_⟩
  · rw [← hlocates.isSome_location?_iff, Option.isSome_iff_exists] at hpresent
    obtain ⟨location, hlocation⟩ := hpresent
    obtain ⟨hmem, rfl⟩ := mem_of_location? hlocation
    rw [hlocates.declared location hmem, hrows, hlocation]
    rfl
  · have hnone : stream.location? table = none := by
      rw [← Option.not_isSome_iff_eq_none, hlocates.isSome_location?_iff, habsent]
      exact Bool.false_ne_true
    rw [hrows, hnone]
    rfl

/-- Rows that follow the schema are found where their table is located. -/
theorem LocatesTables.findsRows (hlocates : stream.LocatesTables) {ρ : Type} [Row ρ]
    (hschema : Row.FollowsSchema ρ) : stream.FindsRows ρ := by
  have htable? {location : TableLocation}
      (hlocation : stream.location? (Row.table ρ) = some location) :=
    (table?_eq_some hlocates.stop_le (hschema.size_eq _) hlocation).1
  constructor
  · rw [← hlocates.isSome_location?_iff]
    cases hlocation : stream.location? (Row.table ρ) with
    | none => simp [table?, hlocation]
    | some location => simp [htable? hlocation]
  · intro table htable
    obtain ⟨location, hlocation, _⟩ := Option.bind_eq_some_iff.mp htable
    obtain ⟨hmem, hkind⟩ := mem_of_location? hlocation
    cases htable.symm.trans (htable? hlocation)
    refine ⟨rfl, rfl, hkind ▸ hlocates.declared location hmem, location, hmem, hkind, rfl, ?_⟩
    rw [TableLocation.stop, hkind, ← hschema.size_eq]
    rfl

open Row in
/-- A stream that is read has the tables of its mask. They are located one after the other behind
the row counts, in the order of their ids and within the data. Each takes as many bytes as its rows
have in the schema, for widths of columns that come from the heap flags and from all row counts. The
rows of every type that is read are found where their table is located, as many as are declared for
it, and are found only if it is present. -/
theorem read_locates_tables (hread : read data typeSystemRows = .ok stream) :
    stream.data = data ∧ Reader.u8.evalAt data 6 = .ok stream.heapSizes ∧
      Reader.le64.evalAt data 8 = .ok stream.valid ∧ stream.MeasuresColumns typeSystemRows ∧
      stream.LocatesTables ∧
      stream.FindsRows ModuleRow ∧ stream.FindsRows TypeDefRow ∧ stream.FindsRows MethodDefRow ∧
      stream.FindsRows NestedClassRow ∧ stream.FindsRows DocumentRow ∧
      stream.FindsRows MethodDebugRow ∧ stream.FindsRows LocalScopeRow ∧
      stream.FindsRows LocalVariableRow ∧ stream.FindsRows LocalConstantRow ∧
      stream.FindsRows ImportScopeRow ∧ stream.FindsRows StateMachineRow ∧
      stream.FindsRows CustomInfoRow := by
  obtain ⟨hdata, hheapSizes, hvalid, _⟩ := read_eq_ok hread
  have hlocates := locatesTables_of_read hread
  exact ⟨hdata, hheapSizes, hvalid, measuresColumns_of_read hread, hlocates,
    hlocates.findsRows followsSchema_module, hlocates.findsRows followsSchema_typeDef,
    hlocates.findsRows followsSchema_methodDef, hlocates.findsRows followsSchema_nestedClass,
    hlocates.findsRows followsSchema_document, hlocates.findsRows followsSchema_methodDebug,
    hlocates.findsRows followsSchema_localScope, hlocates.findsRows followsSchema_localVariable,
    hlocates.findsRows followsSchema_localConstant, hlocates.findsRows followsSchema_importScope,
    hlocates.findsRows followsSchema_stateMachine, hlocates.findsRows followsSchema_customInfo⟩

/-- A stream of a local scope, no import scopes and a state machine. Four bytes that are not used
stand in front of the rows. -/
def scopeStream : List UInt8 :=
  [0, 0, 0, 0, 2, 0, 0x40, 1] ++ [0, 0, 0, 0, 0, 0, 0x64, 0] ++ List.replicate 8 0 ++
    [1, 0, 0, 0] ++ [0, 0, 0, 0] ++ [1, 0, 0, 0] ++ List.replicate 4 0xFF ++ List.replicate 26 0

/-- There are too many methods for narrow references to them. The table of import scopes is present
and found without rows, and one of documents is neither present nor found. -/
theorem read_locates_tables_wideMethods : ∃ stream,
    read scopeStream.toArray (some (RowCounts.none.setTable .methodDef 0x10000)) = .ok stream ∧
      stream.locations =
        [⟨.localScope, 40, 1⟩, ⟨.importScope, 58, 0⟩, ⟨.stateMachineMethod, 58, 1⟩] ∧
      stream.LocatesTables ∧ stream.FindsRows ImportScopeRow ∧ stream.FindsRows DocumentRow ∧
      (stream.table? ImportScopeRow).isSome = true ∧ stream.table? DocumentRow = none := by
  have hfound :
      (read scopeStream.toArray (some (RowCounts.none.setTable .methodDef 0x10000))).toOption.map
        (fun stream => (stream.locations, stream.valid)) =
      some ([⟨.localScope, 40, 1⟩, ⟨.importScope, 58, 0⟩, ⟨.stateMachineMethod, 58, 1⟩],
        0x64000000000000) := by
    decide
  obtain ⟨stream, hread, hfound⟩ := exists_ok_of_toOption_map hfound
  simp only [Prod.mk.injEq] at hfound
  obtain ⟨hlocations, hvalid⟩ := hfound
  obtain ⟨_, _, _, _, hlocates, _, _, _, _, hdocuments, _, _, _, _, himports, _⟩ :=
    read_locates_tables hread
  refine ⟨stream, hread, hlocations, hlocates, himports, hdocuments, ?_, ?_⟩
  · rw [himports.isSome_iff, hasTable, hvalid]
    decide
  · rw [← Option.not_isSome_iff_eq_none, hdocuments.isSome_iff, hasTable, hvalid]
    decide

end TablesStream

end PortablePdb
