import PortablePdb.Proofs.Checked.Module
import PortablePdb.Proofs.Overwriting
import PortablePdb.Proofs.Stepping

namespace PortablePdb

namespace Reader

variable {α β : Type} {reader : Reader α}

/-- Where the reader gives a value, it has moved forward by a number of bytes. -/
def Advances (reader : Reader α) (size : Nat) : Prop :=
  ∀ data position value next, reader.runAt data position = .ok value next → next = position + size

theorem advances_pure (value : α) : (pure value : Reader α).Advances 0 := by
  rintro _ _ _ _ ⟨⟩
  rfl

theorem advances_throw (error : Error) (size : Nat) : (throw error : Reader α).Advances size :=
  nofun

theorem Advances.bind {next : α → Reader β} {first second : Nat} (hreader : reader.Advances first)
    (hnext : ∀ value, (next value).Advances second) :
    (reader >>= next).Advances (first + second) := by
  intro data position result stop hrun
  rw [runAt_bind] at hrun
  split at hrun
  · next value middle hvalue =>
    rw [hnext value data middle result stop hrun, hreader data position value middle hvalue,
      Nat.add_assoc]
  · cases hrun

theorem IsFixed.advances {size : Nat} (hreader : reader.IsFixed size) : reader.Advances size := by
  intro data position value next hrun
  obtain hshort | hroom := Nat.lt_or_ge data.size (position + size)
  · obtain ⟨stop, hstop⟩ := hreader.exists_error data position hshort
    cases hstop.symm.trans hrun
  · obtain ⟨other, hother⟩ := hreader.exists_ok data position hroom
    cases hother.symm.trans hrun
    rfl

theorem advances_le16 : le16.Advances 2 :=
  (((isFixed_bytes 2).bind_pure Bytes.natLE).bind_pure Nat.toUInt16).advances

theorem advances_le32 : le32.Advances 4 :=
  fun _ _ _ _ => position_le32

end Reader

theorem Index.advances_read (wide : Bool) : (read wide).Advances (width wide) := by
  cases wide with
  | true => exact Reader.advances_le32
  | false => exact Reader.advances_le16.bind fun value => Reader.advances_pure value.toUInt32

namespace Column

open Reader

variable (layout : Layout)

theorem advances_u16 : le16.Advances (size layout .u16) :=
  advances_le16

theorem advances_u32 : le32.Advances (size layout .u32) :=
  advances_le32

theorem advances_string : (Index.read layout.wideStrings).Advances (size layout .string) :=
  Index.advances_read _

theorem advances_guid : (Index.read layout.wideGuids).Advances (size layout .guid) :=
  Index.advances_read _

theorem advances_blob : (Index.read layout.wideBlobs).Advances (size layout .blob) :=
  Index.advances_read _

theorem advances_row (table : Table) :
    (Index.read (layout.isLarge table)).Advances (size layout (.row table)) := by
  rw [size, Layout.rowIndexBytes_eq]
  exact Index.advances_read _

theorem advances_coded (kind : CodedKind) :
    (CodedIndex.read layout kind).Advances (size layout (.coded kind)) := by
  change Reader.Advances _ (Index.width (layout.codedIsLarge kind) + 0)
  refine (Index.advances_read _).bind fun value => ?_
  cases CodedIndex.decode kind value with
  | ok index => exact advances_pure index
  | error error => exact advances_throw error 0

end Column

namespace Row

/-- Rows as long as the columns of their table, which are read in as many bytes. -/
structure FollowsSchema (ρ : Type) [Row ρ] : Prop where
  size_eq : ∀ layout, Row.size ρ layout = (Row.table ρ).rowSize layout
  advances_read : ∀ layout rid, (Row.read layout rid : Reader ρ).Advances (Row.size ρ layout)

variable {ρ : Type} [Row ρ]

/-- The columns that are read are those of the schema, one after the other. -/
theorem FollowsSchema.of_columns
    (hsize : ∀ layout, Row.size ρ layout = (Row.table ρ).rowSize layout)
    (hread : ∀ layout rid, (Row.read layout rid : Reader ρ).Advances
      ((Row.table ρ).rowSize layout)) : FollowsSchema ρ where
  size_eq := hsize
  advances_read layout rid := by
    rw [hsize]
    exact hread layout rid

section TypeSystem

open Column Reader

theorem followsSchema_module : FollowsSchema ModuleRow :=
  .of_columns ModuleRow.size_eq_rowSize fun layout _ =>
    (advances_u16 layout).bind fun _ => (advances_string layout).bind fun _ =>
      (advances_guid layout).bind fun _ => (advances_guid layout).bind fun _ =>
        (advances_guid layout).bind fun _ => advances_pure _

theorem followsSchema_typeDef : FollowsSchema TypeDefRow :=
  .of_columns TypeDefRow.size_eq_rowSize fun layout _ =>
    (advances_u32 layout).bind fun _ => (advances_string layout).bind fun _ =>
      (advances_string layout).bind fun _ => (advances_coded layout .typeDefOrRef).bind fun _ =>
        (advances_row layout .field).bind fun _ => (advances_row layout .methodDef).bind fun _ =>
          advances_pure _

theorem followsSchema_methodDef : FollowsSchema MethodDefRow :=
  .of_columns MethodDefRow.size_eq_rowSize fun layout _ =>
    (advances_u32 layout).bind fun _ => (advances_u16 layout).bind fun _ =>
      (advances_u16 layout).bind fun _ => (advances_string layout).bind fun _ =>
        (advances_blob layout).bind fun _ => (advances_row layout .param).bind fun _ =>
          advances_pure _

theorem followsSchema_nestedClass : FollowsSchema NestedClassRow :=
  .of_columns NestedClassRow.size_eq_rowSize fun layout _ =>
    (advances_row layout .typeDef).bind fun _ => (advances_row layout .typeDef).bind fun _ =>
      advances_pure _

end TypeSystem

section Debug

open Column Reader StoredRow

theorem followsSchema_document : FollowsSchema DocumentRow :=
  .of_columns size_eq_rowSize fun layout _ =>
    (advances_blob layout).bind fun _ => (advances_guid layout).bind fun _ =>
      (advances_blob layout).bind fun _ => (advances_guid layout).bind fun _ => advances_pure _

theorem followsSchema_methodDebug : FollowsSchema MethodDebugRow :=
  .of_columns size_eq_rowSize fun layout _ =>
    (advances_row layout .document).bind fun _ => (advances_blob layout).bind fun _ =>
      advances_pure _

theorem followsSchema_localScope : FollowsSchema LocalScopeRow :=
  .of_columns size_eq_rowSize fun layout _ =>
    (advances_row layout .methodDef).bind fun _ => (advances_row layout .importScope).bind fun _ =>
      (advances_row layout .localVariable).bind fun _ =>
        (advances_row layout .localConstant).bind fun _ => (advances_u32 layout).bind fun _ =>
          (advances_u32 layout).bind fun _ => advances_pure _

theorem followsSchema_localVariable : FollowsSchema LocalVariableRow :=
  .of_columns size_eq_rowSize fun layout _ =>
    (advances_u16 layout).bind fun _ => (advances_u16 layout).bind fun _ =>
      (advances_string layout).bind fun _ => advances_pure _

theorem followsSchema_localConstant : FollowsSchema LocalConstantRow :=
  .of_columns size_eq_rowSize fun layout _ =>
    (advances_string layout).bind fun _ => (advances_blob layout).bind fun _ => advances_pure _

theorem followsSchema_importScope : FollowsSchema ImportScopeRow :=
  .of_columns size_eq_rowSize fun layout _ =>
    (advances_row layout .importScope).bind fun _ => (advances_blob layout).bind fun _ =>
      advances_pure _

theorem followsSchema_stateMachine : FollowsSchema StateMachineRow :=
  .of_columns size_eq_rowSize fun layout _ =>
    (advances_row layout .methodDef).bind fun _ => (advances_row layout .methodDef).bind fun _ =>
      advances_pure _

theorem followsSchema_customInfo : FollowsSchema CustomInfoRow :=
  .of_columns size_eq_rowSize fun layout _ =>
    (advances_coded layout .hasCustomDebugInformation).bind fun _ =>
      (advances_guid layout).bind fun _ => (advances_blob layout).bind fun _ => advances_pure _

end Debug

end Row

section Writing

theorem run_writeBytes (form data : Bytes) (position : Nat) :
    (writeBytes form).run (data, position) =
      match data.overwrite position form with
      | .ok written => .ok () (written, position + form.size)
      | .error error => .error error (data, position) := by
  have hrun : (writeBytes form).run (data, position) =
      (match data.overwrite position form with
        | .ok written => set (written, position + form.size)
        | .error error => throw error : EStateM Error (Bytes × Nat) Unit) (data, position) := rfl
  rw [hrun]
  cases data.overwrite position form <;> rfl

theorem run_writeColumns_cons (form : Bytes) (columns : List (Except Error Bytes)) (data : Bytes)
    (position : Nat) :
    (writeColumns (.ok form :: columns)).run (data, position) =
      match data.overwrite position form with
      | .ok written => (writeColumns columns).run (written, position + form.size)
      | .error error => .error error (data, position) := by
  change EStateM.bind (writeBytes form) (fun _ => writeColumns columns) (data, position) = _
  have hbytes : writeBytes form (data, position) = _ := run_writeBytes form data position
  rw [EStateM.bind, hbytes]
  cases data.overwrite position form <;> rfl

theorem encodeColumns_cons_eq_ok_iff {first form : Bytes} {columns : List (Except Error Bytes)} :
    encodeColumns (.ok first :: columns) = .ok form ↔
      ∃ rest, encodeColumns columns = .ok rest ∧ first ++ rest = form := by
  have hcons : encodeColumns (.ok first :: columns) =
      encodeColumns columns >>= fun rest => pure (first ++ rest) := rfl
  simp only [hcons, bind_eq_ok_iff, pure_eq_ok_iff]

/-- Columns that are written one after the other come to the bytes of all of them. -/
theorem run_writeColumns_eq_ok_iff {columns : List (Except Error Bytes)} {data written : Bytes}
    {position next : Nat} (hle : position ≤ data.size) :
    (writeColumns columns).run (data, position) = .ok () (written, next) ↔
      ∃ form, encodeColumns columns = .ok form ∧ data.overwrite position form = .ok written ∧
        next = position + form.size := by
  induction columns generalizing data position with
  | nil =>
    have hempty := Bytes.overwrite_empty hle
    constructor
    · rintro ⟨⟩
      exact ⟨#[], rfl, hempty, rfl⟩
    · rintro ⟨_, ⟨⟩, hwritten, rfl⟩
      cases hempty.symm.trans hwritten
      rfl
  | cons column columns ih =>
    cases column with
    | error error => exact ⟨nofun, fun ⟨_, hform, _⟩ => nomatch hform⟩
    | ok first =>
      rw [run_writeColumns_cons]
      cases hmiddle : data.overwrite position first with
      | error error =>
        refine ⟨nofun, fun ⟨form, hform, hwritten, _⟩ => ?_⟩
        obtain ⟨rest, _, rfl⟩ := encodeColumns_cons_eq_ok_iff.mp hform
        rw [Bytes.overwrite_parts, hmiddle] at hwritten
        cases hwritten
      | ok middle =>
        -- The data keep their size, so that the columns left start within them as well.
        have hroom := Bytes.le_size_of_overwrite hmiddle
        rw [← Bytes.size_overwrite hmiddle] at hroom
        constructor
        · intro hrun
          obtain ⟨rest, hrest, hwritten, rfl⟩ := (ih hroom).mp hrun
          refine ⟨first ++ rest, encodeColumns_cons_eq_ok_iff.mpr ⟨rest, hrest, rfl⟩, ?_, ?_⟩
          · rw [Bytes.overwrite_parts, hmiddle, ok_bind, hwritten]
          · rw [Array.size_append, Nat.add_assoc]
        · rintro ⟨_, hform, hwritten, rfl⟩
          obtain ⟨rest, hrest, rfl⟩ := encodeColumns_cons_eq_ok_iff.mp hform
          rw [Bytes.overwrite_parts, hmiddle, ok_bind] at hwritten
          refine (ih hroom).mpr ⟨rest, hrest, hwritten, ?_⟩
          rw [Array.size_append, Nat.add_assoc]

theorem le_size_of_writeColumns {columns : List (Except Error Bytes)} {data : Bytes}
    {position : Nat} {after : Bytes × Nat} (hsome : columns ≠ [])
    (hrun : (writeColumns columns).run (data, position) = .ok () after) : position ≤ data.size := by
  obtain _ | ⟨error | form, columns⟩ := columns
  · exact absurd rfl hsome
  · cases hrun
  · rw [run_writeColumns_cons] at hrun
    cases hwritten : data.overwrite position form with
    | error error =>
      rw [hwritten] at hrun
      cases hrun
    | ok written => exact Nat.le_of_add_right_le (Bytes.le_size_of_overwrite hwritten)

variable {ρ : Type} [StoredRow ρ] [InPlaceRow ρ]

theorem InPlaceRow.columns_ne_nil (layout : Layout) (row : ρ) : columns layout row ≠ [] := by
  intro hnil
  have hform : WritableRow.encode layout row = .ok #[] := by
    rw [encode_eq, hnil]
    rfl
  have hsize : 0 = Row.size ρ layout := StoredRow.size_encode hform
  have hfour : 4 ≤ Row.size ρ layout := StoredRow.four_le_size layout
  omega

/-- A row that is written column by column is written as its bytes. -/
theorem run_writeRow_eq_ok_iff {layout : Layout} {row : ρ} {data written : Bytes}
    {position next : Nat} :
    (writeRow layout row).run (data, position) = .ok () (written, next) ↔
      ∃ form, WritableRow.encode layout row = .ok form ∧
        data.overwrite position form = .ok written ∧ next = position + form.size := by
  rw [InPlaceRow.encode_eq]
  obtain hlt | hle := Nat.lt_or_ge data.size position
  · constructor
    · intro hrun
      have hle := le_size_of_writeColumns (InPlaceRow.columns_ne_nil layout row) hrun
      omega
    · rintro ⟨form, _, hwritten, _⟩
      have hle := Bytes.le_size_of_overwrite hwritten
      omega
  · exact run_writeColumns_eq_ok_iff hle

end Writing

/-- A row that is kept where it is written. It is written if all its columns have room for their
values and the data have room for the row; then no other bytes change, the next position is that
behind the row, and the row is read back from where it was written. -/
structure WritesBack {ρ : Type} [StoredRow ρ] [InPlaceRow ρ] (row : ρ) : Prop where
  exists_ok_iff : ∀ layout data position,
    (∃ after, (writeRow layout row).run (data, position) = .ok () after) ↔
      (∃ form, WritableRow.encode layout row = .ok form) ∧
        position + Row.size ρ layout ≤ data.size
  of_ok : ∀ layout data position written next,
    (writeRow layout row).run (data, position) = .ok () (written, next) →
      next = position + Row.size ρ layout ∧ data.SameOutside position next written ∧
        ∀ rid, (Row.read layout rid).runAt written position =
          .ok (StoredRow.numbered rid row) next

theorem StoredRow.writesBack {ρ : Type} [StoredRow ρ] [InPlaceRow ρ] {row : ρ}
    (hkept : IsKept row) : WritesBack row where
  exists_ok_iff layout data position := by
    constructor
    · rintro ⟨⟨written, next⟩, hrun⟩
      obtain ⟨form, hform, hwritten, _⟩ := run_writeRow_eq_ok_iff.mp hrun
      refine ⟨⟨form, hform⟩, ?_⟩
      rw [← size_encode hform]
      exact Bytes.le_size_of_overwrite hwritten
    · rintro ⟨⟨form, hform⟩, hroom⟩
      rw [← size_encode hform] at hroom
      obtain ⟨written, hwritten, _⟩ := Bytes.exists_overwrite hroom
      exact ⟨_, run_writeRow_eq_ok_iff.mpr ⟨form, hform, hwritten, rfl⟩⟩
  of_ok layout data position written next hrun := by
    obtain ⟨form, hform, hwritten, rfl⟩ := run_writeRow_eq_ok_iff.mp hrun
    obtain ⟨other, hother, hat, hsame⟩ :=
      Bytes.exists_overwrite (Bytes.le_size_of_overwrite hwritten)
    cases hother.symm.trans hwritten
    exact ⟨by rw [size_encode hform], hsame,
      fun rid => takes_encode hkept hform rid written position hat⟩

open Row in
/-- In every layout, the rows of all tables that are read are as long as the schema says, and a row
that is read ends as many bytes after its start. The rows of the debug tables are kept where they
are written; those of custom debug information are if the row of their parent fits a token. -/
theorem rows_follow_schema :
    (FollowsSchema ModuleRow ∧ FollowsSchema TypeDefRow ∧ FollowsSchema MethodDefRow ∧
      FollowsSchema NestedClassRow ∧ FollowsSchema DocumentRow ∧ FollowsSchema MethodDebugRow ∧
      FollowsSchema LocalScopeRow ∧ FollowsSchema LocalVariableRow ∧
      FollowsSchema LocalConstantRow ∧ FollowsSchema ImportScopeRow ∧
      FollowsSchema StateMachineRow ∧ FollowsSchema CustomInfoRow) ∧
    (∀ row : DocumentRow, WritesBack row) ∧ (∀ row : MethodDebugRow, WritesBack row) ∧
    (∀ row : LocalScopeRow, WritesBack row) ∧ (∀ row : LocalVariableRow, WritesBack row) ∧
    (∀ row : LocalConstantRow, WritesBack row) ∧ (∀ row : ImportScopeRow, WritesBack row) ∧
    (∀ row : StateMachineRow, WritesBack row) ∧
    ∀ row : CustomInfoRow, row.parent.row.toNat < 0x1000000 → WritesBack row :=
  ⟨⟨followsSchema_module, followsSchema_typeDef, followsSchema_methodDef,
      followsSchema_nestedClass, followsSchema_document, followsSchema_methodDebug,
      followsSchema_localScope, followsSchema_localVariable, followsSchema_localConstant,
      followsSchema_importScope, followsSchema_stateMachine, followsSchema_customInfo⟩,
    fun _ => StoredRow.writesBack trivial, fun _ => StoredRow.writesBack trivial,
    fun _ => StoredRow.writesBack trivial, fun _ => StoredRow.writesBack trivial,
    fun _ => StoredRow.writesBack trivial, fun _ => StoredRow.writesBack trivial,
    fun _ => StoredRow.writesBack trivial, fun _ hparent => StoredRow.writesBack hparent⟩

/-- A layout in which there are as many import scopes as tokens can number. -/
def fullImportScopes : Layout :=
  .ofHeapSizes (RowCounts.none.setTable .importScope 0xFFFFFF) 0

/-- A record about the last import scope is written in eight bytes, and read back from there. -/
theorem rows_follow_schema_lastParent :
    (0xFFFFFF : UInt32).toNat < 0x1000000 ∧
      ∃ written, (writeRow fullImportScopes
          (⟨1, ⟨.importScope, 0xFFFFFF⟩, 0xFFFF, 7⟩ : CustomInfoRow)).run (Bytes.zeros 10, 1) =
        .ok () (written, 9) ∧ (Bytes.zeros 10).SameOutside 1 9 written ∧
        (Row.read fullImportScopes 1 : Reader CustomInfoRow).runAt written 1 =
          .ok ⟨1, ⟨.importScope, 0xFFFFFF⟩, 0xFFFF, 7⟩ 9 := by
  obtain ⟨_, _, _, _, _, _, _, _, hkept⟩ := rows_follow_schema
  have hrow := hkept ⟨1, ⟨.importScope, 0xFFFFFF⟩, 0xFFFF, 7⟩ (by decide)
  obtain ⟨⟨written, next⟩, hrun⟩ :=
    (hrow.exists_ok_iff fullImportScopes (Bytes.zeros 10) 1).mpr ⟨⟨_, rfl⟩, by decide⟩
  obtain ⟨rfl, hsame, hread⟩ := hrow.of_ok _ _ _ _ _ hrun
  exact ⟨by decide, written, hrun, hsame, hread 1⟩

end PortablePdb
