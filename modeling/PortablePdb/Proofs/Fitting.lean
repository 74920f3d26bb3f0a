import PortablePdb.Proofs.Builder
import PortablePdb.Proofs.Container
import PortablePdb.Proofs.Growth

namespace PortablePdb

namespace Index

variable {wide : Bool} {value : UInt32}

/-- Whether an index fits a column. -/
def Fits (wide : Bool) (value : UInt32) : Prop :=
  wide = true ∨ value ≤ 0xFFFF

theorem fits_zero (wide : Bool) : Fits wide 0 :=
  .inr (by decide)

theorem Fits.exists_encode (hfits : Fits wide value) : ∃ form, encode wide value = .ok form := by
  unfold encode
  rcases hfits with hwide | hsmall
  · exact ⟨_, if_pos hwide⟩
  · by_cases hwide : wide = true
    · exact ⟨_, if_pos hwide⟩
    · exact ⟨_, (if_neg hwide).trans (if_pos hsmall)⟩

theorem encode_of_not_fits (hfits : ¬ Fits wide value) :
    encode wide value = reject (.narrowIndex value) := by
  obtain ⟨hwide, hlarge⟩ := not_or.mp hfits
  exact (if_neg hwide).trans (if_neg hlarge)

/-- A position in a heap fits columns of positions in the heap. -/
theorem fits_of_lt {data : Bytes} (hlt : value.toNat < data.size) :
    Fits (0xFFFF < data.size) value := by
  by_cases hlarge : 0xFFFF < data.size
  · exact .inl (decide_eq_true hlarge)
  · refine .inr (UInt32.le_iff_toNat_le.mpr ?_)
    simp only [UInt32.reduceToNat]
    omega

end Index

theorem BlobHeap.HasBlob.fits {data value : Bytes} {index : UInt32}
    (hblob : HasBlob data index value) : Index.Fits (0xFFFF < data.size) index := by
  obtain ⟨form, hform, hat⟩ := hblob
  have hle := hat.size_le
  have hpos : 0 < form.size := Compressed.size_encodeUInt_pos hform
  rw [Array.size_append] at hle
  exact Index.fits_of_lt (by omega)

theorem StringHeap.HasString.fits {data : Bytes} {index : UInt32} {value : String}
    (hstring : HasString data index value) : Index.Fits (0xFFFF < data.size) index := by
  have hle := hstring.hasAt.size_le
  rw [Array.size_push] at hle
  exact Index.fits_of_lt (by omega)

theorem GuidHeap.HasGuid.fits {data : Bytes} {index : UInt32} {guid : Guid}
    (hguid : HasGuid data index guid) : Index.Fits (0xFFFF < data.size) index := by
  obtain ⟨rfl, _⟩ | ⟨hpos, hat⟩ := hguid
  · exact Index.fits_zero _
  · have hle := hat.size_le
    rw [Guid.size_toBytes] at hle
    exact Index.fits_of_lt (by omega)

namespace Layout

variable {layout : Layout} {table : Table} {value : UInt32}

/-- The number of a row fits columns of references to its table. -/
theorem fits_row (hle : value ≤ layout.rows.ofTable table) :
    Index.Fits (layout.isLarge table) value := by
  by_cases hlarge : layout.isLarge table = true
  · exact .inl hlarge
  · refine .inr (UInt32.le_iff_toNat_le.mpr ?_)
    rw [isLarge_iff] at hlarge
    rw [UInt32.le_iff_toNat_le] at hle
    simp only [UInt32.reduceToNat]
    omega

/-- The number after that of the last row fits as well, unless the last row has the largest number
that fits. -/
theorem fits_start_iff (hle : value.toNat ≤ (layout.rows.ofTable table).toNat + 1) :
    Index.Fits (layout.isLarge table) value ↔
      ¬ ((layout.rows.ofTable table).toNat = 0xFFFF ∧ value = 0x10000) := by
  rw [Index.Fits, isLarge_iff, UInt32.le_iff_toNat_le, ← UInt32.toNat_inj]
  simp only [UInt32.reduceToNat]
  omega

theorem toNat_lt_rowBits (layout : Layout) (table : Table) :
    (layout.rows.ofTable table).toNat < 2 ^ layout.rowBits table := by
  simp only [rowBits]
  by_cases hzero : (layout.rows.ofTable table).toNat = 0
  · rw [hzero]
    exact Nat.two_pow_pos _
  · rw [if_neg hzero]
    exact Nat.lt_log2_self

theorem rowBits_le_codedBits (layout : Layout) {kind : CodedKind} (htable : table ∈ kind.tables) :
    layout.rowBits table + kind.tagBits ≤ layout.codedBits kind := by
  have hfold (bits : List Nat) (start : Nat) :
      start ≤ bits.foldl max start ∧ ∀ bit ∈ bits, bit ≤ bits.foldl max start := by
    induction bits generalizing start with
    | nil => exact ⟨Nat.le_refl start, nofun⟩
    | cons bit bits ih =>
      obtain ⟨hstart, hrest⟩ := ih (max start bit)
      refine ⟨(Nat.le_max_left start bit).trans hstart, ?_⟩
      intro other hother
      rcases List.mem_cons.mp hother with rfl | hother
      · exact (Nat.le_max_right start other).trans hstart
      · exact hrest other hother
  exact Nat.add_le_add_right ((hfold _ 0).2 _ (List.mem_map_of_mem htable)) kind.tagBits

end Layout

/-- A reference to a row that there is fits columns of its kind. -/
theorem CodedIndex.exists_encodeColumn {index : CodedIndex} {kind : CodedKind} {layout : Layout}
    {value : UInt32} (hvalue : index.encode kind = .ok value)
    (hrow : index.row ≤ layout.rows.ofTable index.table) :
    ∃ form, index.encodeColumn layout kind = .ok form := by
  have hfits : Index.Fits (layout.codedIsLarge kind) value := by
    unfold encode at hvalue
    split at hvalue
    · next tag htag =>
      obtain ⟨hfound, htagSpan⟩ := getElem?_of_idxOf? htag
      have htable : index.table ∈ kind.tables := List.mem_of_getElem? hfound
      cases hvalue
      by_cases hlarge : layout.codedIsLarge kind = true
      · exact .inl hlarge
      · have hbits := layout.rowBits_le_codedBits htable
        simp only [Layout.codedIsLarge, decide_eq_true_eq, Nat.not_lt] at hlarge
        have hspan : kind.tagSpan = 2 ^ kind.tagBits := Nat.one_shiftLeft kind.tagBits
        have hnat := (UInt32.le_iff_toNat_le.mp hrow).trans_lt (layout.toNat_lt_rowBits index.table)
        have hcoded : index.row.toNat * kind.tagSpan + tag < 0x10000 := by
          calc index.row.toNat * kind.tagSpan + tag
              < (index.row.toNat + 1) * kind.tagSpan := by
                rw [Nat.succ_mul]
                omega
            _ ≤ 2 ^ layout.rowBits index.table * 2 ^ kind.tagBits := by
                rw [hspan]
                exact Nat.mul_le_mul_right _ hnat
            _ ≤ 0x10000 := by
                rw [← Nat.pow_add]
                exact Nat.pow_le_pow_right (by decide) (hbits.trans hlarge)
        refine .inr (UInt32.le_iff_toNat_le.mpr ?_)
        simp only [Nat.toUInt32_eq, UInt32.toNat_ofNat', UInt32.reduceToNat]
        omega
    · cases hvalue
  obtain ⟨form, hform⟩ := hfits.exists_encode
  exact ⟨form, bind_eq_ok_iff.mpr ⟨value, hvalue, hform⟩⟩

section Rows

variable {layout : Layout}

/-- Columns can be written together if each of them has room for its value. -/
theorem exists_encodeColumns {columns : List (Except Error Bytes)}
    (hcolumns : ∀ column ∈ columns, ∃ form, column = .ok form) :
    ∃ form, encodeColumns columns = .ok form := by
  induction columns with
  | nil => exact ⟨#[], rfl⟩
  | cons column columns ih =>
    obtain ⟨⟨first, hfirst⟩, hrest⟩ := List.forall_mem_cons.mp hcolumns
    obtain ⟨rest, hrest⟩ := ih hrest
    exact ⟨_, bind_eq_ok_iff.mpr ⟨first, hfirst, bind_eq_ok_iff.mpr ⟨rest, hrest, rfl⟩⟩⟩

theorem InPlaceRow.exists_encode {ρ : Type} [WritableRow ρ] [InPlaceRow ρ] {row : ρ}
    (hcolumns : ∀ column ∈ columns layout row, ∃ form, column = .ok form) :
    ∃ form, WritableRow.encode layout row = .ok form := by
  rw [encode_eq]
  exact exists_encodeColumns hcolumns

theorem DocumentRow.exists_encode {row : DocumentRow}
    (hname : Index.Fits layout.wideBlobs row.name)
    (halgorithm : Index.Fits layout.wideGuids row.hashAlgorithm)
    (hhash : Index.Fits layout.wideBlobs row.hash)
    (hlanguage : Index.Fits layout.wideGuids row.language) :
    ∃ form, WritableRow.encode layout row = .ok form := by
  apply InPlaceRow.exists_encode
  simp only [InPlaceRow.columns, List.forall_mem_cons]
  exact ⟨hname.exists_encode, halgorithm.exists_encode, hhash.exists_encode,
    hlanguage.exists_encode, nofun⟩

theorem MethodDebugRow.exists_encode {row : MethodDebugRow}
    (hdocument : Index.Fits (layout.isLarge .document) row.document)
    (hpoints : Index.Fits layout.wideBlobs row.sequencePoints) :
    ∃ form, WritableRow.encode layout row = .ok form := by
  apply InPlaceRow.exists_encode
  simp only [InPlaceRow.columns, List.forall_mem_cons]
  exact ⟨hdocument.exists_encode, hpoints.exists_encode, nofun⟩

/-- A row of a scope without constants can be written if its variables start at a number that fits,
and it is refused for this number otherwise. -/
theorem LocalScopeRow.encode_cases {row : LocalScopeRow}
    (hmethod : Index.Fits (layout.isLarge .methodDef) row.method)
    (himport : Index.Fits (layout.isLarge .importScope) row.importScope)
    (hconstants : row.constantList = 1) :
    (Index.Fits (layout.isLarge .localVariable) row.variableList →
      ∃ form, WritableRow.encode layout row = .ok form) ∧
    (¬ Index.Fits (layout.isLarge .localVariable) row.variableList →
      WritableRow.encode layout row = reject (.narrowIndex row.variableList)) := by
  constructor
  · intro hvariables
    have hone : Index.Fits (layout.isLarge .localConstant) row.constantList := by
      rw [hconstants]
      exact .inr (by decide)
    apply InPlaceRow.exists_encode
    simp only [InPlaceRow.columns, List.forall_mem_cons]
    exact ⟨hmethod.exists_encode, himport.exists_encode, hvariables.exists_encode,
      hone.exists_encode, ⟨_, rfl⟩, ⟨_, rfl⟩, nofun⟩
  · intro hvariables
    obtain ⟨_, hmethod⟩ := hmethod.exists_encode
    obtain ⟨_, himport⟩ := himport.exists_encode
    exact bind_eq_error_iff.mpr (.inr ⟨_, hmethod, bind_eq_error_iff.mpr (.inr ⟨_, himport,
      bind_eq_error_iff.mpr (.inl (Index.encode_of_not_fits hvariables))⟩)⟩)

theorem LocalVariableRow.exists_encode {row : LocalVariableRow}
    (hname : Index.Fits layout.wideStrings row.name) :
    ∃ form, WritableRow.encode layout row = .ok form := by
  apply InPlaceRow.exists_encode
  simp only [InPlaceRow.columns, List.forall_mem_cons]
  exact ⟨⟨_, rfl⟩, ⟨_, rfl⟩, hname.exists_encode, nofun⟩

theorem ImportScopeRow.exists_encode {row : ImportScopeRow}
    (hparent : Index.Fits (layout.isLarge .importScope) row.parent)
    (himports : Index.Fits layout.wideBlobs row.imports) :
    ∃ form, WritableRow.encode layout row = .ok form := by
  apply InPlaceRow.exists_encode
  simp only [InPlaceRow.columns, List.forall_mem_cons]
  exact ⟨hparent.exists_encode, himports.exists_encode, nofun⟩

theorem StateMachineRow.exists_encode {row : StateMachineRow}
    (hmoveNext : Index.Fits (layout.isLarge .methodDef) row.moveNextMethod)
    (hkickoff : Index.Fits (layout.isLarge .methodDef) row.kickoffMethod) :
    ∃ form, WritableRow.encode layout row = .ok form := by
  apply InPlaceRow.exists_encode
  simp only [InPlaceRow.columns, List.forall_mem_cons]
  exact ⟨hmoveNext.exists_encode, hkickoff.exists_encode, nofun⟩

theorem CustomInfoRow.exists_encode {row : CustomInfoRow} {key : UInt32}
    (hkey : row.parent.encode .hasCustomDebugInformation = .ok key)
    (hparent : row.parent.row ≤ layout.rows.ofTable row.parent.table)
    (hkind : Index.Fits layout.wideGuids row.kind)
    (hvalue : Index.Fits layout.wideBlobs row.value) :
    ∃ form, WritableRow.encode layout row = .ok form := by
  apply InPlaceRow.exists_encode
  simp only [InPlaceRow.columns, List.forall_mem_cons]
  exact ⟨CodedIndex.exists_encodeColumn hkey hparent, hkind.exists_encode, hvalue.exists_encode,
    nofun⟩

variable {ρ : Type} [WritableRow ρ] {rows : List ρ}

/-- Rows can be written if each of them can. -/
theorem exists_encodeRows (hrows : ∀ row ∈ rows, ∃ form, WritableRow.encode layout row = .ok form) :
    ∃ form, encodeRows layout rows = .ok form := by
  unfold encodeRows
  generalize (#[] : Bytes) = out
  induction rows generalizing out with
  | nil => exact ⟨out, rfl⟩
  | cons row rows ih =>
    obtain ⟨form, hform⟩ := hrows row List.mem_cons_self
    obtain ⟨rest, hrest⟩ := ih (fun other hother => hrows other (List.mem_cons_of_mem row hother))
      (out ++ form)
    refine ⟨rest, ?_⟩
    rw [List.foldlM_cons, hform]
    exact hrest

/-- Rows are refused for what one of them is refused for. -/
theorem encodeRows_eq_error {error : Error}
    (hrows : ∀ row ∈ rows, (∃ form, WritableRow.encode layout row = .ok form) ∨
      WritableRow.encode layout row = .error error)
    (hrefused : ∃ row ∈ rows, WritableRow.encode layout row = .error error) :
    encodeRows layout rows = .error error := by
  unfold encodeRows
  generalize (#[] : Bytes) = out
  induction rows generalizing out with
  | nil =>
    obtain ⟨row, hrow, _⟩ := hrefused
    cases hrow
  | cons row rows ih =>
    rw [List.foldlM_cons]
    obtain ⟨form, hform⟩ | herror := hrows row List.mem_cons_self
    · rw [hform]
      refine ih (fun other hother => hrows other (List.mem_cons_of_mem row hother)) ?_ _
      obtain ⟨other, hother, herror⟩ := hrefused
      rcases List.mem_cons.mp hother with rfl | hother
      · rw [hform] at herror
        cases herror
      · exact ⟨other, hother, herror⟩
    · rw [herror]
      rfl

end Rows

namespace DebugTables

variable {tables : DebugTables} {layout : Layout} {typeSystemRows : RowCounts}

/-- The row counts that decide about widths are those of the module and those of the debug tables.
-/
theorem ofTable_allRows (tables : DebugTables) (typeSystemRows : RowCounts) (table : Table) :
    (tables.allRows typeSystemRows).ofTable table =
      if table.isDebug then tables.rowCount table else typeSystemRows.ofTable table := by
  have hlt := table.id_lt
  change (tables.allRows typeSystemRows)[table.id] = _
  simp only [allRows, Vector.getElem_ofFn, Table.ofId?_id, Option.map_some, Option.getD_some,
    Table.isDebug, decide_eq_true_eq]
  by_cases hid : 0x30 ≤ table.id
  · rw [if_neg (by omega), if_pos hid]
  · rw [if_pos (by omega), if_neg hid]
    rfl

/-- The number of a row fits columns of references to its debug table. -/
theorem fits_debugRow (tables : DebugTables) (typeSystemRows : RowCounts) {table : Table}
    (hdebug : table.isDebug = true) {value : UInt32} (hle : value.toNat ≤ tables.size table) :
    Index.Fits ((tables.layout typeSystemRows).isLarge table) value := by
  apply Layout.fits_row
  have hcount := tables.toNat_rowCount table
  have hlt := value.toNat_lt
  change value ≤ (tables.allRows typeSystemRows).ofTable table
  rw [ofTable_allRows, if_pos hdebug, UInt32.le_iff_toNat_le]
  omega

/-- The row of a method of the module fits columns of references to methods. -/
theorem fits_method (tables : DebugTables) {value : UInt32}
    (hle : value ≤ typeSystemRows.ofTable .methodDef) :
    Index.Fits ((tables.layout typeSystemRows).isLarge .methodDef) value := by
  apply Layout.fits_row
  change value ≤ (tables.allRows typeSystemRows).ofTable .methodDef
  rw [ofTable_allRows]
  exact hle

/-- Where the variables of a scope start fits, unless 65535 variables come before. -/
theorem fits_variableList_iff (tables : DebugTables) (typeSystemRows : RowCounts) {value : UInt32}
    (hle : value.toNat ≤ tables.localVariables.size + 1) :
    Index.Fits ((tables.layout typeSystemRows).isLarge .localVariable) value ↔
      ¬ (tables.localVariables.size = 0xFFFF ∧ value = 0x10000) := by
  have hcount : ((tables.layout typeSystemRows).rows.ofTable .localVariable).toNat =
      min tables.localVariables.size 0xFFFFFFFF := by
    change ((tables.allRows typeSystemRows).ofTable .localVariable).toNat = _
    rw [ofTable_allRows]
    exact tables.toNat_rowCount .localVariable
  have hlt := value.toNat_lt
  rw [Layout.fits_start_iff (by omega), hcount, not_iff_not]
  exact and_congr_left fun _ => by omega

/-- The stream of tables can be written if each row can. -/
theorem exists_encodeStream
    (htables : ∀ table, ∃ form,
      tables.encodeTable (tables.layout typeSystemRows) table = .ok form) :
    ∃ form, tables.encodeStream typeSystemRows = .ok form := by
  obtain ⟨_, hdocuments⟩ := htables .document
  obtain ⟨_, hmethods⟩ := htables .methodDebugInformation
  obtain ⟨_, hlocalScopes⟩ := htables .localScope
  obtain ⟨_, hlocalVariables⟩ := htables .localVariable
  obtain ⟨_, hlocalConstants⟩ := htables .localConstant
  obtain ⟨_, himportScopes⟩ := htables .importScope
  obtain ⟨_, hstateMachines⟩ := htables .stateMachineMethod
  obtain ⟨_, hcustomInfo⟩ := htables .customDebugInformation
  have hbody : ∃ body, tables.encodeAllRows (tables.layout typeSystemRows) = .ok body :=
    ⟨_, bind_eq_ok_iff.mpr ⟨_, hdocuments, bind_eq_ok_iff.mpr ⟨_, hmethods,
      bind_eq_ok_iff.mpr ⟨_, hlocalScopes, bind_eq_ok_iff.mpr ⟨_, hlocalVariables,
        bind_eq_ok_iff.mpr ⟨_, hlocalConstants, bind_eq_ok_iff.mpr ⟨_, himportScopes,
          bind_eq_ok_iff.mpr ⟨_, hstateMachines, bind_eq_ok_iff.mpr ⟨_, hcustomInfo, rfl⟩⟩⟩⟩⟩⟩⟩⟩⟩
  obtain ⟨body, hbody⟩ := hbody
  exact ⟨_, bind_eq_ok_iff.mpr ⟨body, hbody, rfl⟩⟩

/-- The stream of tables is refused for what a scope is refused for, if documents and methods are
not. -/
theorem encodeStream_eq_error {error : Error}
    (hdocuments : ∃ form, tables.encodeTable (tables.layout typeSystemRows) .document = .ok form)
    (hmethods : ∃ form,
      tables.encodeTable (tables.layout typeSystemRows) .methodDebugInformation = .ok form)
    (hscopes : tables.encodeTable (tables.layout typeSystemRows) .localScope = .error error) :
    tables.encodeStream typeSystemRows = .error error := by
  obtain ⟨_, hdocuments⟩ := hdocuments
  obtain ⟨_, hmethods⟩ := hmethods
  refine bind_eq_error_iff.mpr (.inl ?_)
  exact bind_eq_error_iff.mpr (.inr ⟨_, hdocuments, bind_eq_error_iff.mpr (.inr ⟨_, hmethods,
    bind_eq_error_iff.mpr (.inl hscopes)⟩)⟩)

/-- Rows refer to rows that there are and to values of the heaps. Only the variables of a scope may
start behind the last one, and there are no constants. -/
structure RefersWithin (tables : DebugTables) (typeSystemRows : RowCounts) : Prop where
  documents : ∀ row ∈ tables.documents, ∃ document, row.Describes tables.blobs tables.guids document
  document_le : ∀ row ∈ tables.methods, row.document.toNat ≤ tables.documents.size
  sequencePoints : ∀ row ∈ tables.methods, row.sequencePoints = 0 ∨
    ∃ points, BlobHeap.HasBlob tables.blobs row.sequencePoints points
  method_le : ∀ row ∈ tables.localScopes, row.method ≤ typeSystemRows.ofTable .methodDef
  importScope_le : ∀ row ∈ tables.localScopes, row.importScope.toNat ≤ tables.importScopes.size
  variableList_le : ∀ row ∈ tables.localScopes,
    row.variableList.toNat ≤ tables.localVariables.size + 1
  constantList : ∀ row ∈ tables.localScopes, row.constantList = 1
  localVariables : ∀ row ∈ tables.localVariables, ∃ name,
    StringHeap.HasString tables.strings row.name name
  localConstants : tables.localConstants = #[]
  parent_le : ∀ row ∈ tables.importScopes, row.parent.toNat ≤ tables.importScopes.size
  imports : ∀ row ∈ tables.importScopes, ∃ names, row.Imports tables.blobs names
  stateMachines : ∀ row ∈ tables.stateMachines,
    row.moveNextMethod ≤ typeSystemRows.ofTable .methodDef ∧
      row.kickoffMethod ≤ typeSystemRows.ofTable .methodDef
  parents : ∀ row ∈ tables.customInfo,
    row.parent.row ≤ (tables.allRows typeSystemRows).ofTable row.parent.table ∧
      ∃ key, row.parent.encode .hasCustomDebugInformation = .ok key
  customInfo : ∀ row ∈ tables.customInfo, ∃ info,
    StoresInfo tables.blobs tables.guids (row.parent, row.kind, row.value) info

/-- There are 65535 variables, as many as narrow references can number, and the variables of some
scope start behind all of them. -/
def OverrunsVariables (tables : DebugTables) : Prop :=
  tables.localVariables.size = 0xFFFF ∧ ∃ row ∈ tables.localScopes, row.variableList = 0x10000

namespace RefersWithin

theorem exists_encode_documents (hwithin : tables.RefersWithin typeSystemRows) : ∃ form,
    tables.encodeTable (tables.layout typeSystemRows) .document = .ok form := by
  apply exists_encodeRows
  intro row hrow
  obtain ⟨document, hdescribes⟩ := hwithin.documents row (Array.mem_toList_iff.mp hrow)
  obtain ⟨_, hname, _⟩ := hdescribes.name
  exact DocumentRow.exists_encode hname.fits hdescribes.hashAlgorithm.fits hdescribes.hash.fits
    hdescribes.language.fits

theorem exists_encode_methods (hwithin : tables.RefersWithin typeSystemRows) : ∃ form,
    tables.encodeTable (tables.layout typeSystemRows) .methodDebugInformation = .ok form := by
  apply exists_encodeRows
  intro row hrow
  have hmem := Array.mem_toList_iff.mp hrow
  apply MethodDebugRow.exists_encode
  · exact tables.fits_debugRow typeSystemRows rfl (hwithin.document_le row hmem)
  · obtain hzero | ⟨_, hpoints⟩ := hwithin.sequencePoints row hmem
    · rw [hzero]
      exact Index.fits_zero _
    · exact hpoints.fits

theorem encode_localScope_cases (hwithin : tables.RefersWithin typeSystemRows)
    {row : LocalScopeRow} (hrow : row ∈ tables.localScopes) :
    (¬ (tables.localVariables.size = 0xFFFF ∧ row.variableList = 0x10000) →
      ∃ form, WritableRow.encode (tables.layout typeSystemRows) row = .ok form) ∧
    (tables.localVariables.size = 0xFFFF ∧ row.variableList = 0x10000 →
      WritableRow.encode (tables.layout typeSystemRows) row =
        reject (.narrowIndex 0x10000)) := by
  have hmethod := tables.fits_method (hwithin.method_le row hrow)
  have himport : Index.Fits ((tables.layout typeSystemRows).isLarge .importScope) row.importScope :=
    tables.fits_debugRow typeSystemRows rfl (hwithin.importScope_le row hrow)
  obtain ⟨hok, herror⟩ :=
    LocalScopeRow.encode_cases hmethod himport (hwithin.constantList row hrow)
  have hiff := tables.fits_variableList_iff typeSystemRows (hwithin.variableList_le row hrow)
  constructor
  · intro hfits
    exact hok (hiff.mpr hfits)
  · intro hoverruns
    rw [herror fun hfits => hiff.mp hfits hoverruns, hoverruns.2]

theorem exists_encode_localVariables (hwithin : tables.RefersWithin typeSystemRows) : ∃ form,
    tables.encodeTable (tables.layout typeSystemRows) .localVariable = .ok form := by
  apply exists_encodeRows
  intro row hrow
  obtain ⟨_, hname⟩ := hwithin.localVariables row (Array.mem_toList_iff.mp hrow)
  exact LocalVariableRow.exists_encode hname.fits

theorem exists_encode_importScopes (hwithin : tables.RefersWithin typeSystemRows) : ∃ form,
    tables.encodeTable (tables.layout typeSystemRows) .importScope = .ok form := by
  apply exists_encodeRows
  intro row hrow
  have hmem := Array.mem_toList_iff.mp hrow
  obtain ⟨_, _, himports, _⟩ := hwithin.imports row hmem
  exact ImportScopeRow.exists_encode
    (tables.fits_debugRow typeSystemRows rfl (hwithin.parent_le row hmem)) himports.fits

theorem exists_encode_stateMachines (hwithin : tables.RefersWithin typeSystemRows) : ∃ form,
    tables.encodeTable (tables.layout typeSystemRows) .stateMachineMethod = .ok form := by
  apply exists_encodeRows
  intro row hrow
  obtain ⟨hmoveNext, hkickoff⟩ := hwithin.stateMachines row (Array.mem_toList_iff.mp hrow)
  exact StateMachineRow.exists_encode (tables.fits_method hmoveNext) (tables.fits_method hkickoff)

theorem exists_encode_customInfo (hwithin : tables.RefersWithin typeSystemRows) : ∃ form,
    tables.encodeTable (tables.layout typeSystemRows) .customDebugInformation = .ok form := by
  apply exists_encodeRows
  intro row hrow
  have hmem := Array.mem_toList_iff.mp hrow
  obtain ⟨hparent, _, hkey⟩ := hwithin.parents row hmem
  obtain ⟨_, hstores⟩ := hwithin.customInfo row hmem
  exact CustomInfoRow.exists_encode hkey hparent hstores.kind.fits hstores.value.fits

/-- Tables that refer to what there is can be written. -/
theorem exists_encodeStream (hwithin : tables.RefersWithin typeSystemRows)
    (hfits : ¬ tables.OverrunsVariables) :
    ∃ form, tables.encodeStream typeSystemRows = .ok form := by
  apply DebugTables.exists_encodeStream
  intro table
  cases table with
  | document => exact hwithin.exists_encode_documents
  | methodDebugInformation => exact hwithin.exists_encode_methods
  | localScope =>
    apply exists_encodeRows
    intro row hrow
    have hmem := Array.mem_toList_iff.mp hrow
    refine (hwithin.encode_localScope_cases hmem).1 fun hoverruns => hfits ?_
    exact ⟨hoverruns.1, row, hmem, hoverruns.2⟩
  | localVariable => exact hwithin.exists_encode_localVariables
  | localConstant =>
    apply exists_encodeRows
    rw [hwithin.localConstants]
    nofun
  | importScope => exact hwithin.exists_encode_importScopes
  | stateMachineMethod => exact hwithin.exists_encode_stateMachines
  | customDebugInformation => exact hwithin.exists_encode_customInfo
  | _ => exact ⟨#[], rfl⟩

/-- The one number that does not fit is what tables are refused for. -/
theorem encodeStream_eq_error (hwithin : tables.RefersWithin typeSystemRows)
    (hoverruns : tables.OverrunsVariables) :
    tables.encodeStream typeSystemRows = reject (.narrowIndex 0x10000) := by
  apply DebugTables.encodeStream_eq_error hwithin.exists_encode_documents
    hwithin.exists_encode_methods
  obtain ⟨hsize, last, hlast, hlist⟩ := hoverruns
  apply encodeRows_eq_error
  · intro row hrow
    obtain ⟨hok, herror⟩ := hwithin.encode_localScope_cases (Array.mem_toList_iff.mp hrow)
    by_cases hstart : row.variableList = 0x10000
    · exact .inr (herror ⟨hsize, hstart⟩)
    · exact .inl (hok fun hboth => hstart hboth.2)
  · exact ⟨last, Array.mem_toList_iff.mpr hlast,
      (hwithin.encode_localScope_cases hlast).2 ⟨hsize, hlist⟩⟩

end RefersWithin

end DebugTables

end PortablePdb
