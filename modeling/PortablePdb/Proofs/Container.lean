import Mathlib.Order.Fin.Basic
import PortablePdb.Container.Read
import PortablePdb.Proofs.Root
import PortablePdb.Proofs.TablesStream

namespace PortablePdb

namespace Reader

variable {α : Type}

theorem runAt_remaining (data : Bytes) (position : Nat) :
    remaining.runAt data position = .ok (data.size - position) position :=
  rfl

/-- A reader that asks how many bytes are left is told of at least those of its own form. -/
theorem Takes.bind_remaining {next : Nat → Reader α} {form : Bytes} {a : α}
    (hnext : ∀ left, form.size ≤ left → (next left).Takes form a) :
    (remaining >>= next).Takes form a := by
  intro data position hform
  have hle := hform.size_le
  rw [runAt_bind, runAt_remaining]
  exact hnext (data.size - position) (by omega) data position hform

theorem takes_guid (guid : Guid) : Reader.guid.Takes guid.toBytes guid := by
  have hbytes : (bytes 16).Takes guid.toBytes guid.toBytes := by
    rw [← Guid.size_toBytes guid]
    exact takes_bytes guid.toBytes
  have hread : Reader.guid.Takes (guid.toBytes ++ #[]) guid := by
    refine hbytes.bind ?_
    rw [Guid.ofBytes?_toBytes]
    exact takes_pure guid
  rwa [Array.append_empty] at hread

end Reader

open Reader

theorem ContentId.takes_read (id : ContentId) : ContentId.read.Takes id.toBytes id :=
  (takes_guid id.guid).bind (takes_le32 id.stamp).bind_pure

/-- An id is found at the start of all data that starts with it. -/
theorem ContentId.ofBytes_eq {data : Bytes} {id : ContentId} (hat : data.HasAt 0 id.toBytes) :
    ofBytes data = .ok id :=
  (takes_read id).evalAt_eq hat

namespace Container

/-- The row counts of the ids that a mask has set are read over those of other ids. -/
theorem takes_readCounts (mask : UInt64) (rows : RowCounts) (slots : List (Fin 64))
    (base : RowCounts) :
    (readCounts mask slots base).Takes
      (Bytes.concat ((slots.filter fun slot => mask.toNat.testBit slot.val).map fun slot =>
        Bytes.le32 (rows.get slot)))
      ((slots.filter fun slot => mask.toNat.testBit slot.val).foldl
        (fun counts slot => counts.set slot.val (rows.get slot) slot.isLt) base) := by
  induction slots generalizing base with
  | nil => exact takes_pure base
  | cons slot slots ih =>
    cases hset : mask.toNat.testBit slot.val with
    | false =>
      rw [readCounts, if_neg (by simp [hset]), List.filter_cons_of_neg (by simp [hset])]
      exact ih base
    | true =>
      rw [readCounts, if_pos hset]
      simp only [List.filter_cons, hset, if_true, List.map_cons, List.foldl_cons]
      exact (takes_le32 _).bind (ih _)

theorem get_foldl_set (rows : RowCounts) (slots : List (Fin 64)) (base : RowCounts)
    (slot : Fin 64) :
    (slots.foldl (fun counts slot => counts.set slot.val (rows.get slot) slot.isLt) base).get slot =
      if slot ∈ slots then rows.get slot else base.get slot := by
  induction slots generalizing base with
  | nil => simp
  | cons first slots ih =>
    rw [List.foldl_cons, ih]
    by_cases hlater : slot ∈ slots
    · rw [if_pos hlater, if_pos (List.mem_cons_of_mem first hlater)]
    · rw [if_neg hlater]
      by_cases hfirst : slot = first
      · subst hfirst
        rw [if_pos List.mem_cons_self]
        exact Vector.getElem_set_self _
      · rw [if_neg (by simp [hfirst, hlater])]
        exact Vector.getElem_set_ne _ _ fun heq => hfirst (Fin.ext heq.symm)

theorem mem_usedSlots {rows : RowCounts} {slot : Fin 64} :
    slot ∈ usedSlots rows ↔ slot.val < 0x30 ∧ rows.get slot ≠ 0 := by
  simp [usedSlots]

/-- The mask has the type-system tables that have rows. -/
theorem testBit_usedMask (rows : RowCounts) (slot : Fin 64) :
    (usedMask rows).toNat.testBit slot.val = true ↔ slot.val < 0x30 ∧ rows.get slot ≠ 0 := by
  have hbits (other : Fin 64) : ((1 : UInt64) <<< other.val.toUInt64).toNat.testBit slot.val =
      decide (other.val = slot.val) :=
    testBit_shiftLeft other.isLt slot.val
  rw [usedMask, testBit_foldl_or, ← mem_usedSlots]
  simp only [hbits]
  simp [Fin.val_inj]

theorem filter_usedMask (rows : RowCounts) :
    ((List.finRange 64).filter fun slot => (usedMask rows).toNat.testBit slot.val) =
      usedSlots rows := by
  rw [usedSlots]
  apply List.filter_congr
  intro slot _
  rw [Bool.eq_iff_iff, testBit_usedMask]
  simp

theorem foldl_set_usedSlots (rows : RowCounts) :
    (usedSlots rows).foldl (fun counts slot => counts.set slot.val (rows.get slot) slot.isLt)
      RowCounts.none = TablesStream.typeSystemCounts rows := by
  apply Vector.ext
  intro i hi
  have hget := get_foldl_set rows (usedSlots rows) RowCounts.none ⟨i, hi⟩
  have hcounts := TablesStream.get_typeSystemCounts rows ⟨i, hi⟩
  have hnone : RowCounts.none.get ⟨i, hi⟩ = 0 := Vector.getElem_replicate hi
  rw [hnone] at hget
  refine hget.trans (Eq.trans ?_ hcounts.symm)
  by_cases hlow : i < 0x30
  · by_cases hzero : rows.get ⟨i, hi⟩ = 0
    · rw [if_neg (by simp [mem_usedSlots, hzero]), if_pos hlow, hzero]
    · rw [if_pos (mem_usedSlots.mpr ⟨hlow, hzero⟩), if_pos hlow]
  · rw [if_neg (by simp [mem_usedSlots]; omega), if_neg hlow]

theorem encodeHead_eq (id : ContentId) (entryPoint : Token) (rows : RowCounts) :
    encodeHead id entryPoint rows = id.toBytes ++ (Bytes.le32 entryPoint.value ++
      (Bytes.le64 (usedMask rows) ++
        Bytes.concat ((usedSlots rows).map fun slot => Bytes.le32 (rows.get slot)))) := by
  rw [encodeHead, Bytes.foldl_append_eq]
  simp only [Array.append_assoc]

theorem size_encodeHead (id : ContentId) (entryPoint : Token) (rows : RowCounts) :
    (encodeHead id entryPoint rows).size = 32 + 4 * (usedSlots rows).length := by
  have hcounts (slots : List (Fin 64)) :
      (Bytes.concat (slots.map fun slot => Bytes.le32 (rows.get slot))).size =
        4 * slots.length := by
    induction slots with
    | nil => rfl
    | cons slot slots ih =>
      simp only [List.map_cons, Bytes.concat_cons, Array.size_append, Bytes.size_le32,
        List.length_cons]
      omega
  simp only [encodeHead_eq, Array.size_append, ContentId.size_toBytes, Bytes.size_le32,
    Bytes.size_le64, ContentId.size, hcounts]
  omega

theorem pad4_encodeHead (id : ContentId) (entryPoint : Token) (rows : RowCounts) :
    (encodeHead id entryPoint rows).pad4 = encodeHead id entryPoint rows := by
  apply Bytes.pad4_eq_self
  rw [size_encodeHead]
  omega

/-- The debug stream is read back, with the row counts of the type system only. -/
theorem takes_readHead (id : ContentId) (entryPoint : Token) (rows : RowCounts) :
    readHead.Takes (encodeHead id entryPoint rows)
      ⟨id, entryPoint, TablesStream.typeSystemCounts rows⟩ := by
  have hcounts := takes_readCounts (usedMask rows) rows (List.finRange 64) RowCounts.none
  rw [filter_usedMask, foldl_set_usedSlots] at hcounts
  refine Takes.bind_remaining ?_
  intro left hleft
  have hsize : 32 ≤ (encodeHead id entryPoint rows).size := by
    simp only [encodeHead_eq, Array.size_append, ContentId.size_toBytes, Bytes.size_le32,
      Bytes.size_le64, ContentId.size]
    omega
  rw [if_neg (by simp only [ContentId.size]; omega), encodeHead_eq]
  exact (ContentId.takes_read id).bind ((takes_le32 entryPoint.value).bind
    ((takes_le64 (usedMask rows)).bind hcounts.bind_pure))

end Container

/-- What a debug stream consists of: an id, an entry point, the mask of the type-system tables that
have rows, and the row count of each of them. -/
structure Container.IsHead (head : Bytes) (id : ContentId) (entryPoint : Token) (rows : RowCounts) :
    Prop where
  parts : head = id.toBytes ++ (Bytes.le32 entryPoint.value ++ (Bytes.le64 (usedMask rows) ++
    Bytes.concat ((usedSlots rows).map fun slot => Bytes.le32 (rows.get slot))))
  mask : ∀ slot : Fin 64, (usedMask rows).toNat.testBit slot.val = true ↔
    slot.val < 0x30 ∧ rows.get slot ≠ 0
  id_eq : ContentId.ofBytes head = .ok id
  read_eq : readHead.eval head = .ok ⟨id, entryPoint, TablesStream.typeSystemCounts rows⟩

theorem Container.isHead_encodeHead (id : ContentId) (entryPoint : Token) (rows : RowCounts) :
    IsHead (encodeHead id entryPoint rows) id entryPoint rows where
  parts := encodeHead_eq id entryPoint rows
  mask := testBit_usedMask rows
  id_eq := by
    apply ContentId.ofBytes_eq
    rw [encodeHead_eq]
    exact (Bytes.hasAt_self _).left
  read_eq := (takes_readHead id entryPoint rows).last.eval_eq

/-- What a stream of tables gives again: every row count, and the rows of every debug table under
the numbers of their places. -/
structure TablesStream.Holds (stream : TablesStream) (tables : DebugTables) : Prop where
  rowCount : ∀ table, (stream.rowCount table).toNat = tables.size table
  documents : stream.rows DocumentRow =
    tables.documents.mapIdx fun i row => { row with rid := (i + 1).toUInt32 }
  methods : stream.rows MethodDebugRow =
    tables.methods.mapIdx fun i row => { row with rid := (i + 1).toUInt32 }
  localScopes : stream.rows LocalScopeRow =
    tables.localScopes.mapIdx fun i row => { row with rid := (i + 1).toUInt32 }
  localVariables : stream.rows LocalVariableRow =
    tables.localVariables.mapIdx fun i row => { row with rid := (i + 1).toUInt32 }
  localConstants : stream.rows LocalConstantRow =
    tables.localConstants.mapIdx fun i row => { row with rid := (i + 1).toUInt32 }
  importScopes : stream.rows ImportScopeRow =
    tables.importScopes.mapIdx fun i row => { row with rid := (i + 1).toUInt32 }
  stateMachines : stream.rows StateMachineRow =
    tables.stateMachines.mapIdx fun i row => { row with rid := (i + 1).toUInt32 }
  customInfo : stream.rows CustomInfoRow =
    tables.customInfo.mapIdx fun i row => { row with rid := (i + 1).toUInt32 }

theorem TablesStream.Locates.holds {stream : TablesStream} {tables : DebugTables}
    (hlocates : stream.Locates tables)
    (hparents : ∀ row ∈ tables.customInfo, row.parent.row.toNat < 0x1000000) :
    stream.Holds tables where
  rowCount := hlocates.toNat_rowCount
  documents := hlocates.rows_eq (ρ := DocumentRow) fun _ _ => trivial
  methods := hlocates.rows_eq (ρ := MethodDebugRow) fun _ _ => trivial
  localScopes := hlocates.rows_eq (ρ := LocalScopeRow) fun _ _ => trivial
  localVariables := hlocates.rows_eq (ρ := LocalVariableRow) fun _ _ => trivial
  localConstants := hlocates.rows_eq (ρ := LocalConstantRow) fun _ _ => trivial
  importScopes := hlocates.rows_eq (ρ := ImportScopeRow) fun _ _ => trivial
  stateMachines := hlocates.rows_eq (ρ := StateMachineRow) fun _ _ => trivial
  customInfo := hlocates.rows_eq (ρ := CustomInfoRow) hparents

namespace DebugTables

variable {tables : DebugTables} {id : ContentId} {entryPoint : Token} {typeSystemRows : RowCounts}
  {data : Bytes}

/-- The streams of a container, of which one holds the tables. -/
def streams (tables : DebugTables) (id : ContentId) (entryPoint : Token)
    (typeSystemRows : RowCounts) (form : Bytes) : List (String × Bytes) :=
  [(Container.streamName, Container.encodeHead id entryPoint typeSystemRows), ("#~", form),
    ("#Strings", tables.strings), ("#US", Bytes.zeros 4), ("#GUID", tables.guids),
    ("#Blob", tables.blobs)]

theorem isDirectory_streams (tables : DebugTables) (id : ContentId) (entryPoint : Token)
    (typeSystemRows : RowCounts) (form : Bytes) :
    Root.IsDirectory (tables.streams id entryPoint typeSystemRows form) where
  ne_nil := nofun
  valid := by
    have hnames : ∀ name ∈ ["#Pdb", "#~", "#Strings", "#US", "#GUID", "#Blob"],
        name ∈ StreamHeader.validNames := by
      decide
    intro stream hstream
    exact hnames _ (List.mem_map_of_mem (f := (·.1)) hstream)
  distinct := by
    change ["#Pdb", "#~", "#Strings", "#US", "#GUID", "#Blob"].Nodup
    decide

theorem pad4_encodeStream {form : Bytes} (hform : tables.encodeStream typeSystemRows = .ok form) :
    form.pad4 = form := by
  simp only [encodeStream] at hform
  obtain ⟨body, _, hform⟩ := bind_eq_ok_iff.mp hform
  rw [← pure_eq_ok_iff.mp hform]
  exact Bytes.pad4_pad4 _

theorem encodedSize_streams (tables : DebugTables) (id : ContentId) (entryPoint : Token)
    (typeSystemRows : RowCounts) (form : Bytes) :
    Root.encodedSize Container.version (tables.streams id entryPoint typeSystemRows form) =
      160 + 4 * (Container.usedSlots typeSystemRows).length + Bytes.align4 form.size +
        Bytes.align4 tables.strings.size + Bytes.align4 tables.guids.size +
        Bytes.align4 tables.blobs.size := by
  have hversion : Bytes.align4 (Container.version.utf8ByteSize + 1) = 12 := rfl
  have hdirectory : Root.directorySize (tables.streams id entryPoint typeSystemRows form) = 92 :=
    rfl
  rw [Root.encodedSize, hversion, hdirectory]
  simp only [streams, List.map_cons, List.map_nil, Bytes.concat_cons, Bytes.concat_nil,
    Array.size_append, Bytes.size_pad4, Container.size_encodeHead, Bytes.size_zeros,
    Array.size_empty, Bytes.align4]
  omega

/-- Tables whose stream can be written are written if a word can measure their container. -/
theorem exists_encode_of_form {form : Bytes} (hform : tables.encodeStream typeSystemRows = .ok form)
    (id : ContentId) (entryPoint : Token)
    (hsize : Root.encodedSize Container.version (tables.streams id entryPoint typeSystemRows form) <
      0x100000000) :
    ∃ data, tables.encode id entryPoint typeSystemRows = .ok data ∧
      data.size = Root.encodedSize Container.version
        (tables.streams id entryPoint typeSystemRows form) := by
  obtain ⟨data, hdata, hlength⟩ :=
    Root.exists_encode (isDirectory_streams tables id entryPoint typeSystemRows form) hsize
  exact ⟨data, bind_eq_ok_iff.mpr ⟨form, hform, hdata⟩, hlength⟩

/-- The container of tables is measured by their stream and their heaps. -/
theorem size_encode_of_form (size total : Nat)
    (hform : (tables.encodeStream typeSystemRows).toOption.map Array.size = some size)
    (htotal : 160 + 4 * (Container.usedSlots typeSystemRows).length + Bytes.align4 size +
      Bytes.align4 tables.strings.size + Bytes.align4 tables.guids.size +
      Bytes.align4 tables.blobs.size = total) (hlt : total < 0x100000000)
    (id : ContentId) (entryPoint : Token) :
    (tables.encode id entryPoint typeSystemRows).toOption.map Array.size = some total := by
  obtain ⟨form, hform, hsize⟩ := exists_ok_of_toOption_map hform
  have hmeasured := encodedSize_streams tables id entryPoint typeSystemRows form
  rw [hsize, htotal] at hmeasured
  obtain ⟨data, hdata, hlength⟩ := exists_encode_of_form hform id entryPoint (hmeasured ▸ hlt)
  rw [hdata, ← hmeasured, ← hlength]
  rfl

/-- A container is metadata in which a reader finds the debug stream, the heaps and the tables. -/
theorem exists_streams (hdata : tables.encode id entryPoint typeSystemRows = .ok data)
    (hsize : data.size < 0x100000000) :
    ∃ root form, Root.read data = .ok root ∧
      root.streamData? data "#Pdb" = some (Container.encodeHead id entryPoint typeSystemRows) ∧
      root.streamData? data "#Strings" = some tables.strings.pad4 ∧
      root.streamData? data "#GUID" = some tables.guids.pad4 ∧
      root.streamData? data "#Blob" = some tables.blobs.pad4 ∧
      root.streamData? data "#~" = some form ∧
      tables.encodeStream typeSystemRows = .ok form ∧ form.size < 0x100000000 := by
  obtain ⟨form, hform, hdata⟩ := bind_eq_ok_iff.mp hdata
  have hdirectory := isDirectory_streams tables id entryPoint typeSystemRows form
  obtain ⟨root, hroot, _, hplaces⟩ := Root.read_encode hdata hdirectory hsize
  have hstream := Root.streamData?_eq hplaces hdirectory.distinct
  have hhead := hstream ("#Pdb", Container.encodeHead id entryPoint typeSystemRows)
    List.mem_cons_self
  have htables := hstream ("#~", form) (by simp)
  rw [Container.pad4_encodeHead] at hhead
  rw [pad4_encodeStream hform] at htables
  refine ⟨root, form, hroot, hhead, hstream ("#Strings", tables.strings) (by simp),
    hstream ("#GUID", tables.guids) (by simp),
    hstream ("#Blob", tables.blobs) (by simp), htables, hform, ?_⟩
  obtain ⟨header, _, hplace⟩ := Root.stream?_eq hplaces hdirectory.distinct
    ("#~", form) (by simp)
  have hle := hplace.at_offset.size_le
  simp only [pad4_encodeStream hform] at hle
  omega

/-- A container that a word can measure loses nothing. Its debug stream, its heaps and its tables
are found again, and a reader that knows the row counts of the type system reads every row that was
written, as long as the parents of custom debug information fit tokens. -/
theorem encode_lossless (hdata : tables.encode id entryPoint typeSystemRows = .ok data)
    (hsize : data.size < 0x100000000)
    (hparents : ∀ row ∈ tables.customInfo, row.parent.row.toNat < 0x1000000) :
    ∃ root head form, Root.read data = .ok root ∧
      root.streamData? data "#Pdb" = some head ∧
      Container.IsHead head id entryPoint typeSystemRows ∧
      root.streamData? data "#Strings" = some tables.strings.pad4 ∧
      root.streamData? data "#GUID" = some tables.guids.pad4 ∧
      root.streamData? data "#Blob" = some tables.blobs.pad4 ∧
      root.streamData? data "#~" = some form ∧
      ∀ known : RowCounts,
        (∀ slot : Fin 64, slot.val < 0x30 → known.get slot = typeSystemRows.get slot) →
        ∃ stream, TablesStream.read form (some known) = .ok stream ∧ stream.Holds tables := by
  obtain ⟨root, form, hroot, hhead, hstrings, hguids, hblobs, htables, hform, hfits⟩ :=
    exists_streams hdata hsize
  refine ⟨root, _, form, hroot, hhead, Container.isHead_encodeHead id entryPoint typeSystemRows,
    hstrings, hguids, hblobs, htables, ?_⟩
  intro known hknown
  obtain ⟨stream, hread, hlocates⟩ :=
    read_encodeStream hform hfits (TablesStream.typeSystemCounts_congr hknown)
  exact ⟨stream, hread, hlocates.holds hparents⟩

/-- Tables with a document, a method, a state machine and a record, for a module with so many
methods that references to them are wide. -/
def sampleTables : DebugTables where
  documents := #[⟨1, 1, 1, 9, 0⟩]
  methods := #[⟨1, 1, 12⟩, ⟨2, 0, 0⟩]
  stateMachines := #[⟨1, 70000, 3⟩]
  customInfo := #[⟨1, ⟨.methodDef, 70000⟩, 1, 20⟩]
  strings := #[0]
  blobs := #[0, 2, 7, 7]
  guids := Bytes.zeros 16

/-- The row counts of a module with 70000 methods. -/
def sampleRows : RowCounts :=
  RowCounts.none.setTable .methodDef 70000

theorem size_encode_sample :
    (sampleTables.encode .zero ⟨0x06000001⟩ sampleRows).toOption.map Array.size = some 260 :=
  size_encode_of_form 72 260 (by decide +kernel) (by decide) (by decide) _ _

theorem encode_lossless_sample : ∃ data root form stream,
    sampleTables.encode .zero ⟨0x06000001⟩ sampleRows = .ok data ∧ data.size < 0x100000000 ∧
      (∀ row ∈ sampleTables.customInfo, row.parent.row.toNat < 0x1000000) ∧
      Root.read data = .ok root ∧
      root.streamData? data "#Blob" = some sampleTables.blobs.pad4 ∧
      root.streamData? data "#~" = some form ∧
      TablesStream.read form (some sampleRows) = .ok stream ∧ stream.Holds sampleTables := by
  obtain ⟨data, hdata, hsize⟩ := exists_ok_of_toOption_map size_encode_sample
  have hparents : ∀ row ∈ sampleTables.customInfo, row.parent.row.toNat < 0x1000000 := by decide
  have hfits : data.size < 0x100000000 := by omega
  obtain ⟨root, _, form, hroot, _, _, _, _, hblobs, htables, hread⟩ :=
    encode_lossless hdata hfits hparents
  obtain ⟨stream, hstream, hholds⟩ := hread sampleRows fun _ _ => rfl
  exact ⟨data, root, form, stream, hdata, hfits, hparents, hroot, hblobs, htables, hstream, hholds⟩

end DebugTables

end PortablePdb
