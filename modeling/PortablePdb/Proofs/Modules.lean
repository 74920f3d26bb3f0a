import PortablePdb.Module.Build
import PortablePdb.Module.Load
import PortablePdb.Proofs.Completeness
import PortablePdb.Proofs.Owners

namespace PortablePdb

namespace RowCounts

theorem ofTable_none (table : Table) : none.ofTable table = 0 :=
  Vector.getElem_replicate _

theorem ofTable_setTable_self (counts : RowCounts) (table : Table) (rows : UInt32) :
    (counts.setTable table rows).ofTable table = rows :=
  Vector.getElem_set_self _

theorem ofTable_setTable_ne (counts : RowCounts) {table other : Table} (hne : table ≠ other)
    (rows : UInt32) : (counts.setTable table rows).ofTable other = counts.ofTable other :=
  Vector.getElem_set_ne _ _ fun hid => hne (Table.id_injective hid)

/-- Counts that are set one after the other for different tables are those of a list. -/
theorem ofTable_foldl_setTable {counts : List (Table × UInt32)} (hcounts : (counts.map (·.1)).Nodup)
    (base : RowCounts) (table : Table) :
    (counts.foldl (fun rows (table, count) => rows.setTable table count) base).ofTable table =
      (counts.lookup table).getD (base.ofTable table) := by
  induction counts generalizing base with
  | nil => rfl
  | cons first counts ih =>
    obtain ⟨hfirst, hrest⟩ := List.nodup_cons.mp hcounts
    rw [List.foldl_cons, ih hrest, List.lookup_cons]
    by_cases hsame : table = first.1
    · have hnone : counts.lookup table = Option.none := by
        rw [List.lookup_eq_none_iff]
        intro count hcount
        rw [bne_iff_ne, hsame]
        intro heq
        exact hfirst (List.mem_map.mpr ⟨count, hcount, heq.symm⟩)
      rw [hnone, hsame, beq_self_eq_true]
      exact ofTable_setTable_self base first.1 first.2
    · rw [beq_eq_false_iff_ne.mpr hsame, ofTable_setTable_ne base (Ne.symm hsame)]

end RowCounts

theorem Reader.position_le32 {data : Bytes} {position next : Nat} {value : UInt32}
    (hrun : le32.runAt data position = .ok value next) : next = position + 4 := by
  by_cases hsize : position + 4 ≤ data.size
  · obtain ⟨found, hfound⟩ := reads_le32 data position hsize
    rw [hfound] at hrun
    exact (EStateM.Result.ok.inj hrun).2.symm
  · simp only [le32, natLE, runAt_bind, runAt_bytes_of_lt (Nat.lt_of_not_le hsize)] at hrun
    cases hrun

namespace RowTable

variable {ρ : Type} [Row ρ]

theorem size_addRows_le (table : RowTable ρ) (left rid position : Nat) (before : Array ρ) :
    (table.addRows left rid position before).size ≤ before.size + left := by
  induction left generalizing rid position before with
  | zero => exact Nat.le_refl _
  | succ left ih =>
    rw [addRows]
    split
    · next row next _ =>
      have hle := ih (rid + 1) next (before.push row)
      rw [Array.size_push] at hle
      omega
    · exact Nat.le_add_right _ _

theorem size_rows_le (table : RowTable ρ) : table.rows.size ≤ table.count.toNat := by
  have hle := table.size_addRows_le table.count.toNat 1 table.start #[]
  rwa [Array.size_empty, Nat.zero_add] at hle

end RowTable

namespace TablesStream

section Counts

variable {isPdb : Bool} {valid : UInt64} {slot : Nat} {slots : List Nat} {data : Bytes}
  {position stop : Nat} {counts : List (Table × UInt32)}

theorem readCounts_cons_of_clear (hclear : valid.toNat.testBit slot = false) :
    readCounts isPdb valid (slot :: slots) = readCounts isPdb valid slots := by
  rw [readCounts, if_neg (by simp [hclear])]

/-- A slot of the mask is that of a table, whose row count comes in front of the others. -/
theorem readCounts_cons_of_set (hset : valid.toNat.testBit slot = true)
    (hcounts : (readCounts isPdb valid (slot :: slots)).runAt data position = .ok counts stop) :
    ∃ table rows rest, Table.ofId? slot = some table ∧
      Reader.le32.runAt data position = .ok rows (position + 4) ∧
      (readCounts isPdb valid slots).runAt data (position + 4) = .ok rest stop ∧
      counts = (table, rows) :: rest := by
  rw [readCounts, if_pos hset] at hcounts
  cases htable : Table.ofId? slot with
  | none =>
    rw [htable] at hcounts
    cases hcounts
  | some table =>
    rw [htable] at hcounts
    simp only at hcounts
    split at hcounts
    · cases hcounts
    rw [Reader.runAt_bind] at hcounts
    split at hcounts
    · next rows middle hrows =>
      obtain rfl := Reader.position_le32 hrows
      simp only [Reader.runAt_bind] at hcounts
      split at hcounts
      · next rest _ hrest =>
        cases hcounts
        exact ⟨table, rows, rest, rfl, hrows, hrest, rfl⟩
      · cases hcounts
    · cases hcounts

/-- The tables whose counts are read are those of some slots, in their order. -/
theorem sublist_readCounts
    (hcounts : (readCounts isPdb valid slots).runAt data position = .ok counts stop) :
    (counts.map (·.1.id)).Sublist slots := by
  induction slots generalizing position counts with
  | nil =>
    cases hcounts
    exact .slnil
  | cons slot slots ih =>
    cases hbit : valid.toNat.testBit slot with
    | false =>
      rw [readCounts_cons_of_clear hbit] at hcounts
      exact (ih hcounts).cons slot
    | true =>
      obtain ⟨table, rows, rest, htable, _, hrest, rfl⟩ := readCounts_cons_of_set hbit hcounts
      rw [List.map_cons, Table.id_of_ofId? htable]
      exact (ih hrest).cons_cons slot

end Counts

theorem summary_of_locate {layout : Layout} {stop position : Nat}
    {counts : List (Table × UInt32)} {locations : List TableLocation}
    (hlocate : locate layout stop position counts = .ok locations) :
    locations.map (fun location => (location.table, location.rows)) = counts := by
  induction counts generalizing position locations with
  | nil =>
    cases hlocate
    rfl
  | cons count counts ih =>
    obtain ⟨_, later, hlater, rfl⟩ := locate_cons_eq_ok_iff.mp hlocate
    rw [List.map_cons, ih hlater]

/-- A table is summed up once. -/
theorem nodup_summary {data : Bytes} {typeSystemRows : Option RowCounts} {stream : TablesStream}
    (hstream : read data typeSystemRows = .ok stream) : (stream.summary.map (·.1)).Nodup := by
  obtain ⟨_, _, _, counts, _, hcounts, _, hlocate⟩ := read_eq_ok hstream
  rw [summary, summary_of_locate hlocate]
  have hids := (sublist_readCounts hcounts).nodup List.nodup_range
  rw [← Function.comp_def Table.id, ← List.map_map] at hids
  exact List.Pairwise.of_map Table.id (fun _ _ hne heq => hne (congrArg Table.id heq)) hids

/-- No more rows are read than there are. -/
theorem size_rows_le (stream : TablesStream) (ρ : Type) [Row ρ] :
    (stream.rows ρ).size ≤ (stream.rowCount (Row.table ρ)).toNat := by
  unfold rows table? rowCount
  cases hlocation : stream.location? (Row.table ρ) with
  | none => exact Nat.zero_le _
  | some location =>
    simp only [Option.bind_eq_bind, Option.bind_some, Option.map_some, Option.getD_some]
    cases htable : RowTable.ofData (ρ := ρ) stream.data location.start location.rows
        stream.layout with
    | error error => exact Nat.zero_le _
    | ok table =>
      unfold RowTable.ofData at htable
      simp only at htable
      split at htable <;> cases htable
      exact RowTable.size_rows_le _

end TablesStream

namespace Module

/-- The stream of tables of a module is one that was read. -/
theorem Streams.tables_of_foldlM {metadata : Bytes} {headers : List StreamHeader}
    {before after : Streams} (hstreams : headers.foldlM (Streams.add metadata) before = .ok after)
    (hbefore : ∀ tables, before.tables = some tables → ∃ data,
      TablesStream.read data none = .ok tables) :
    ∀ tables, after.tables = some tables → ∃ data, TablesStream.read data none = .ok tables := by
  induction headers generalizing before with
  | nil =>
    cases hstreams
    exact hbefore
  | cons header headers ih =>
    obtain ⟨middle, hmiddle, hstreams⟩ := bind_eq_ok_iff.mp hstreams
    apply ih hstreams
    obtain ⟨_, hmiddle⟩ := guard_eq_ok_iff.mp hmiddle
    split at hmiddle
    · obtain ⟨read, hread, hmiddle⟩ := bind_eq_ok_iff.mp hmiddle
      rw [← pure_eq_ok_iff.mp hmiddle]
      rintro tables ⟨⟩
      exact ⟨_, hread⟩
    · split at hmiddle
      · obtain ⟨_, _, hmiddle⟩ := bind_eq_ok_iff.mp hmiddle
        rw [← pure_eq_ok_iff.mp hmiddle]
        exact hbefore
      · rw [← pure_eq_ok_iff.mp hmiddle]
        exact hbefore

/-- The tables of an image are those of a stream that was read, and the counts of the module are the
ones that the stream declares. -/
theorem partsOf_eq_ok {image : Image} {parts : Parts} (hparts : partsOf image = .ok parts) :
    (∃ data, TablesStream.read data none = .ok parts.tables) ∧
      ∀ table, parts.rowCounts.ofTable table = parts.tables.rowCount table := by
  obtain ⟨_, _, hparts⟩ := bind_eq_ok_iff.mp hparts
  obtain ⟨_, _, hparts⟩ := bind_eq_ok_iff.mp hparts
  obtain ⟨_, _, hparts⟩ := bind_eq_ok_iff.mp hparts
  obtain ⟨_, _, hparts⟩ := bind_eq_ok_iff.mp hparts
  obtain ⟨_, _, hparts⟩ := bind_eq_ok_iff.mp hparts
  obtain ⟨metadata, _, hparts⟩ := bind_eq_ok_iff.mp hparts
  obtain ⟨root, _, hparts⟩ := bind_eq_ok_iff.mp hparts
  obtain ⟨streams, hstreams, hparts⟩ := bind_eq_ok_iff.mp hparts
  cases htables : streams.tables with
  | none =>
    rw [htables] at hparts
    cases hparts
  | some tables =>
    obtain ⟨data, hdata⟩ := Streams.tables_of_foldlM hstreams nofun tables htables
    rw [htables] at hparts
    cases hstrings : streams.strings with
    | none =>
      rw [hstrings] at hparts
      cases hparts
    | some strings =>
      rw [hstrings] at hparts
      simp only at hparts
      -- The name is read in either case, and all that follows is the same.
      split at hparts
      all_goals
        obtain ⟨_, _, hparts⟩ := bind_eq_ok_iff.mp hparts
        rw [← pure_eq_ok_iff.mp hparts]
        refine ⟨⟨data, hdata⟩, fun table => ?_⟩
        rw [← TablesStream.lookup_summary, ← RowCounts.ofTable_none table]
        exact RowCounts.ofTable_foldl_setTable (TablesStream.nodup_summary hdata) _ table

/-- A module has the types and the counts that were found before, and a method for each row and the
type that declares it. -/
theorem Parts.withOwners_eq_ok {parts : Parts} {image : Image} {owners : Owners} {module : Module}
    (hmodule : parts.withOwners image owners = .ok module) :
    module.types = owners.types ∧ module.rowCounts = parts.rowCounts ∧
      List.Forall₂ (fun (entry : MethodDefRow × Token) (method : ModuleMethod) =>
          method.token = Row.token entry.1 ∧ method.declaringType = entry.2)
        ((parts.tables.rows MethodDefRow).zip owners.declaring).toList module.methods.toList := by
  obtain ⟨methods, hmethods, hmodule⟩ := bind_eq_ok_iff.mp hmodule
  obtain ⟨_, _, hmodule⟩ := bind_eq_ok_iff.mp hmodule
  obtain ⟨_, _, hmodule⟩ := bind_eq_ok_iff.mp hmodule
  rw [← pure_eq_ok_iff.mp hmodule]
  refine ⟨rfl, rfl, (forall₂_of_array_mapM hmethods).imp ?_⟩
  rintro ⟨row, declaringType⟩ method hmethod
  obtain ⟨name, _, hmethod⟩ := bind_eq_ok_iff.mp hmethod
  rw [← pure_eq_ok_iff.mp hmethod]
  exact ⟨rfl, rfl⟩

/-- A module is read from the parts of its image. -/
theorem ofImage_eq_ok {image : Image} {module : Module} (hread : ofImage image = .ok module) :
    ∃ parts owners, partsOf image = .ok parts ∧ parts.owners = .ok owners ∧
      parts.withOwners image owners = .ok module := by
  rw [ofImage_eq] at hread
  obtain ⟨parts, hparts, hread⟩ := bind_eq_ok_iff.mp hread
  obtain ⟨owners, howners, hmodule⟩ := bind_eq_ok_iff.mp hread
  exact ⟨parts, owners, hparts, howners, hmodule⟩

/-- How a module comes about when nobody says another number of methods than it has: it is read from
an image, or it is built up. -/
inductive IsCounted : Module → Prop
  | read {data : Bytes} {module : Module} (hread : Module.ofBytes data = .ok module) :
      IsCounted module
  | named (name : String) : IsCounted (Module.named name)
  | addType {module : Module} (hmodule : IsCounted module) (namespaceName name : String) :
      IsCounted (module.addType namespaceName name).1
  | addNestedType {module : Module} (hmodule : IsCounted module) (enclosing : Token)
      (name : String) : IsCounted (module.addNestedType enclosing name).1
  | addMethod {module : Module} (hmodule : IsCounted module)
      (hsize : module.methods.size + 1 < 0x100000000) (declaringType : Token) (name : String)
      (code : Option MethodCode) : IsCounted (module.addMethod declaringType name code).1
  | setRowCount {module : Module} (hmodule : IsCounted module) {table : Table}
      (htable : table ≠ .methodDef) (rows : UInt32) : IsCounted (module.setRowCount table rows)
  | setEntryPoint {module : Module} (hmodule : IsCounted module) (token : Token) :
      IsCounted (module.setEntryPoint token)
  | setCodeView {module : Module} (hmodule : IsCounted module) (codeView : CodeView) :
      IsCounted (module.setCodeView codeView)

/-- A module that was read has no more methods than the rows that its tables declare. -/
theorem size_methods_of_ofBytes {data : Bytes} {module : Module}
    (hread : Module.ofBytes data = .ok module) :
    module.methods.size ≤ module.methodCount.toNat := by
  obtain ⟨image, _, hread⟩ := bind_eq_ok_iff.mp hread
  obtain ⟨parts, owners, hparts, _, hmodule⟩ := ofImage_eq_ok hread
  obtain ⟨_, hcounts⟩ := partsOf_eq_ok hparts
  obtain ⟨_, hrowCounts, hmethods⟩ := Parts.withOwners_eq_ok hmodule
  have hsize := hmethods.length_eq
  simp only [Array.length_toList, Array.size_zip] at hsize
  have hrows : (parts.tables.rows MethodDefRow).size ≤
      (parts.tables.rowCount .methodDef).toNat :=
    parts.tables.size_rows_le MethodDefRow
  rw [methodCount, rowCount, hrowCounts, hcounts, ← hsize]
  exact (Nat.min_le_left ..).trans hrows

/-- All methods of a module have rows within the number that it declares. -/
theorem IsCounted.size_methods {module : Module} (hmodule : module.IsCounted) :
    module.methods.size ≤ module.methodCount.toNat := by
  induction hmodule with
  | read hread => exact size_methods_of_ofBytes hread
  | named name => exact Nat.zero_le _
  | addType _ namespaceName name ih =>
    rwa [methodCount, rowCount, Module.addType, pushType,
      RowCounts.ofTable_setTable_ne _ (by decide)]
  | addNestedType _ enclosing name ih =>
    rwa [methodCount, rowCount, Module.addNestedType, pushType,
      RowCounts.ofTable_setTable_ne _ (by decide), RowCounts.ofTable_setTable_ne _ (by decide)]
  | addMethod _ hsize declaringType name code ih =>
    rw [methodCount, rowCount, Module.addMethod, RowCounts.ofTable_setTable_self, Array.size_push]
    exact (UInt32.toNat_ofNat_of_lt' hsize).ge
  | setRowCount _ htable rows ih =>
    rwa [methodCount, rowCount, Module.setRowCount, RowCounts.ofTable_setTable_ne _ htable]
  | setEntryPoint _ token ih => exact ih
  | setCodeView _ codeView ih => exact ih

end Module

end PortablePdb
