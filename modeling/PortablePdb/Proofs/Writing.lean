import PortablePdb.Proofs.Answers
import PortablePdb.Proofs.Fitting
import PortablePdb.Proofs.Tabulation

namespace PortablePdb

namespace DebugBuilder

variable {builder : DebugBuilder} {events : List Event} {operations : List Operation}
  {tables : DebugTables} {count : UInt32} {typeSystemRows : RowCounts}

/-- A history refers to documents and scopes of imports that it was told of, to methods of the
module, and to rows that the module and the finished tables have. -/
structure RefersBack (events : List Event) (tables : DebugTables) (count : UInt32)
    (typeSystemRows : RowCounts) : Prop where
  methods : count ≤ typeSystemRows.ofTable .methodDef
  documents : ∀ submission ∈ (additions events).submissions, submission.2.2.isSome = true →
    submission.2.1 ∈ events.filterMap Event.documentRow?
  importScopes : ∀ scope ∈ (additions events).scopes, scope.importScope = globalScope ∨
    scope.importScope ∈ events.filterMap Event.importRow?
  machines : ∀ machine ∈ (additions events).machines,
    machine.1 ≤ typeSystemRows.ofTable .methodDef ∧ machine.2 ≤ typeSystemRows.ofTable .methodDef
  parents : ∀ parent ∈ events.filterMap Event.parent?,
    parent.row ≤ (tables.allRows typeSystemRows).ofTable parent.table

/-- Methods have documents that there are, and points that the heaps hold. -/
theorem Backs.methods (hbacks : builder.Backs events) (hfinishes : builder.Finishes count tables)
    (htabulates : tables.Tabulates (additions events) count)
    (hrefers : RefersBack events tables count typeSystemRows) :
    ∀ row ∈ tables.methods, row.document.toNat ≤ tables.documents.size ∧
      (row.sequencePoints = 0 ∨
        ∃ points, BlobHeap.HasBlob tables.blobs row.sequencePoints points) := by
  intro row hrow
  have hstores := htabulates.methods row hrow
  have hzero (hnone : (row.document, row.sequencePoints) = (0, 0)) :
      row.document.toNat ≤ tables.documents.size ∧ (row.sequencePoints = 0 ∨
        ∃ points, BlobHeap.HasBlob tables.blobs row.sequencePoints points) := by
    obtain ⟨hdocument, hpoints⟩ := Prod.mk.inj hnone
    exact ⟨hdocument ▸ Nat.zero_le _, .inl hpoints⟩
  cases hsubmission : (additions events).submissions.lookup row.rid with
  | none =>
    rw [hsubmission] at hstores
    exact hzero hstores
  | some submission =>
    obtain ⟨document, points⟩ := submission
    rw [hsubmission] at hstores
    cases points with
    | none => exact hzero hstores
    | some points =>
      obtain ⟨rfl, hpoints⟩ := hstores
      obtain ⟨before, rest, hsplit, _⟩ := List.lookup_eq_some_iff.mp hsubmission
      have htold := hrefers.documents _ (hsplit ▸ List.mem_append_cons_self) rfl
      rw [hfinishes.documents]
      exact ⟨hbacks.documentRows row.document htold, .inr ⟨points, hpoints⟩⟩

/-- Scopes have methods of the module and scopes of imports that there are. -/
theorem Backs.localScopes (hbacks : builder.Backs events)
    (hholds : builder.Holds (additions events)) (hfinishes : builder.Finishes count tables)
    (hrefers : RefersBack events tables count typeSystemRows) :
    ∀ row ∈ tables.localScopes, row.method ≤ count ∧
      row.importScope.toNat ≤ tables.importScopes.size ∧ row.constantList = 1 := by
  intro row hrow
  obtain ⟨record, hrecord, hbecomes, hmethod⟩ := hfinishes.exists_scope hrow
  obtain ⟨scope, hscope, hstores⟩ :=
    exists_of_forall₂ hholds.localScopes (Array.mem_toList_iff.mpr hrecord)
  rw [hbecomes]
  refine ⟨hmethod, ?_, rfl⟩
  change record.1.importScope.toNat ≤ _
  rw [hstores.row_eq, hfinishes.importScopes]
  obtain hglobal | htold := hrefers.importScopes scope hscope
  · have hsize := (Array.getElem?_eq_some_iff.mp hholds.importScopes.global).1
    rw [AddedScope.row, hglobal]
    exact hsize
  · exact hbacks.importRows scope.importScope htold

/-- Custom debug information is about rows that there are, and refers to what the heaps hold. -/
theorem Backs.customInfo (hbacks : builder.Backs events)
    (hfinishes : builder.Finishes count tables)
    (htabulates : tables.Tabulates (additions events) count)
    (hrefers : RefersBack events tables count typeSystemRows) :
    ∀ row ∈ tables.customInfo,
      (row.parent.row ≤ (tables.allRows typeSystemRows).ofTable row.parent.table ∧
        ∃ key, row.parent.encode .hasCustomDebugInformation = .ok key) ∧
      ∃ info, StoresInfo tables.blobs tables.guids (row.parent, row.kind, row.value) info := by
  intro row hrow
  obtain ⟨infos, hsorted, hstores⟩ := htabulates.customInfo
  obtain ⟨info, hinfo, hrecord⟩ := exists_of_forall₂ hstores
    (List.mem_map_of_mem (Array.mem_toList_iff.mpr hrow))
  have hmem := hsorted.perm.mem_iff.mp hinfo
  have hparent : row.parent = info.1 := hrecord.parent
  rw [hparent]
  refine ⟨⟨?_, _, htabulates.parents info hmem⟩, info, hparent ▸ hrecord⟩
  obtain hgiven | ⟨htable, hle⟩ := hbacks.parents info hmem
  · exact hrefers.parents info.1 hgiven
  · have hcount := tables.toNat_rowCount .document
    have hlt := info.1.row.toNat_lt
    rw [htable, DebugTables.ofTable_allRows, UInt32.le_iff_toNat_le]
    change info.1.row.toNat ≤ (tables.rowCount .document).toNat
    rw [hcount, DebugTables.size, hfinishes.documents]
    omega

/-- Finished tables refer to what there is if the history did. -/
theorem refersWithin_of_finish (hfinish : (ofOperations operations).finish count = .ok tables)
    (hrefers : RefersBack (history operations) tables count typeSystemRows) :
    tables.RefersWithin typeSystemRows := by
  have hfinishes := finishes_of_finish hfinish
  have hholds := holds_ofOperations operations
  have hbacks := backs_ofOperations operations
  have htabulates := hholds.tabulates hfinishes
  have hsound := hbacks.heaps.isSound
  have hmethods := hbacks.methods hfinishes htabulates hrefers
  have hscopes := hbacks.localScopes hholds hfinishes hrefers
  have hinfo := hbacks.customInfo hfinishes htabulates hrefers
  obtain ⟨scopes, _, hlaid⟩ := htabulates.localScopes
  exact {
    documents := hfinishes.describes hsound hbacks.documents
    document_le := fun row hrow => (hmethods row hrow).1
    sequencePoints := fun row hrow => (hmethods row hrow).2
    method_le := fun row hrow => UInt32.le_trans (hscopes row hrow).1 hrefers.methods
    importScope_le := fun row hrow => (hscopes row hrow).2.1
    variableList_le := hfinishes.lays.variableList_le
    constantList := fun row hrow => (hscopes row hrow).2.2
    localVariables := by
      intro row hrow
      obtain ⟨slot, _, hslot⟩ := exists_of_forall₂ hlaid.slots (Array.mem_toList_iff.mpr hrow)
      exact ⟨slot.name, hslot.name⟩
    localConstants := hfinishes.localConstants
    parent_le := htabulates.importScopes.parent_le
    imports := hfinishes.imports hsound hbacks.importScopes
    stateMachines := by
      intro row hrow
      have hmem := htabulates.stateMachines.perm.mem_iff.mp
        (List.mem_map_of_mem (Array.mem_toList_iff.mpr hrow))
      exact hrefers.machines _ hmem
    parents := fun row hrow => (hinfo row hrow).1
    customInfo := fun row hrow => (hinfo row hrow).2 }

/-- Finished tables of a history that refers to what there is can be written for every content id
and entry point, if the container is smaller than four gigabytes. The exception are 65535 variables
with a scope behind all of them, which no container has: the number of the row after the last
variable does not fit its column. -/
theorem encode_of_finish (hfinish : (ofOperations operations).finish count = .ok tables)
    (hrefers : RefersBack (history operations) tables count typeSystemRows) :
    (¬ tables.OverrunsVariables → ∃ form, tables.encodeStream typeSystemRows = .ok form ∧
      ∀ (id : ContentId) (entryPoint : Token),
        Root.encodedSize Container.version
            (tables.streams id entryPoint typeSystemRows form) < 0x100000000 →
          ∃ data, tables.encode id entryPoint typeSystemRows = .ok data ∧
            data.size = Root.encodedSize Container.version
              (tables.streams id entryPoint typeSystemRows form)) ∧
    (tables.OverrunsVariables → ∀ (id : ContentId) (entryPoint : Token),
      tables.encode id entryPoint typeSystemRows = reject (.narrowIndex 0x10000)) := by
  have hwithin := refersWithin_of_finish hfinish hrefers
  constructor
  · intro hfits
    obtain ⟨form, hform⟩ := hwithin.exists_encodeStream hfits
    exact ⟨form, hform, DebugTables.exists_encode_of_form hform⟩
  · intro hoverruns id entryPoint
    exact bind_eq_error_iff.mpr (.inl (hwithin.encodeStream_eq_error hoverruns))

/-- Two scopes of a method, one within the other. The outer one has a number of variables. -/
def nestedScopes (number : Nat) : List Operation :=
  [.addLocalScope (.methodDef 1) globalScope 0 10 (List.replicate number ⟨0, "", 0⟩),
    .addLocalScope (.methodDef 1) globalScope 0 5 []]

theorem run_variableRows_replicate (number : Nat) (heaps : HeapBuilders) :
    (variableRows (List.replicate number ⟨0, "", 0⟩)).run heaps =
      .ok (List.replicate number ⟨0, 0, 0, 0⟩) heaps := by
  induction number with
  | zero => rfl
  | succ number ih =>
    exact run_bind_eq_ok_iff.mpr ⟨0, heaps, rfl, run_bind_eq_ok_iff.mpr ⟨_, heaps, ih, rfl⟩⟩

/-- Both scopes are added. -/
theorem perform_nestedScopes (number : Nat) : ∃ scopeKeys,
    perform (nestedScopes number) empty =
      ((nestedScopes number).map fun operation => ⟨operation, .ok (.added true)⟩, { empty with
        scopeKeys
        localScopes := #[(⟨0, 1, 1, 0, 0, 0, 10⟩, List.replicate number ⟨0, 0, 0, 0⟩),
          (⟨0, 1, 1, 0, 0, 0, 5⟩, [])] }) := by
  have hmethod : (Token.methodDef 1).isTable .methodDef = true := rfl
  have hsorted : (List.replicate number (⟨0, 0, 0, 0⟩ : LocalVariableRow)).mergeSort
      (fun a b => a.index ≤ b.index) = List.replicate number ⟨0, 0, 0, 0⟩ :=
    List.perm_replicate.mp (List.mergeSort_perm _ _)
  have hempty : empty.scopeKeys.contains ((Token.methodDef 1).row, 0, 10) = false :=
    Std.HashSet.contains_empty
  have hother : (empty.scopeKeys.insert ((Token.methodDef 1).row, 0, 10)).contains
      ((Token.methodDef 1).row, 0, 5) = false := by
    rw [Std.HashSet.contains_insert, empty, Std.HashSet.contains_empty]
    rfl
  have hrows := run_variableRows_replicate number empty.heaps
  have houter := step_addLocalScope_rows hmethod hempty globalScope hrows
  rw [hsorted] at houter
  exact ⟨(empty.scopeKeys.insert ((Token.methodDef 1).row, 0, 10)).insert
      ((Token.methodDef 1).row, 0, 5),
    perform_cons houter (perform_cons (step_addLocalScope_new hmethod hother globalScope) rfl)⟩

/-- The finished tables of two such scopes: the inner one starts its variables behind those of the
outer one. -/
def nestedTables (slots : Array LocalVariableRow) : DebugTables where
  methods := #[⟨1, 0, 0⟩]
  localScopes := #[⟨1, 1, 1, 1, 1, 0, 10⟩, ⟨2, 1, 1, (slots.size + 1).toUInt32, 1, 0, 5⟩]
  localVariables := slots
  importScopes := #[⟨1, 0, 0⟩]
  strings := #[0, 0, 0, 0]
  blobs := #[0, 0, 0, 0]

theorem finish_nestedScopes {number : Nat} {slots : Array LocalVariableRow}
    (hslots : numberVariables (List.replicate number ⟨0, 0, 0, 0⟩) #[] = .ok slots)
    (hroom : slots.size < 0xFFFFFF) :
    (ofOperations (nestedScopes number)).finish 1 = .ok (nestedTables slots) := by
  obtain ⟨scopeKeys, hperform⟩ := perform_nestedScopes number
  rw [ofOperations, hperform]
  generalize hbuilder : ({ empty with
    scopeKeys
    localScopes := #[(⟨0, 1, 1, 0, 0, 0, 10⟩, List.replicate number ⟨0, 0, 0, 0⟩),
      (⟨0, 1, 1, 0, 0, 0, 5⟩, [])] } : DebugBuilder) = builder
  have hexcess : builder.excessMethod? 1 = none := by
    simp [← hbuilder, excessMethod?, empty]
  have hmethods : builder.methodRows 1 = #[⟨1, 0, 0⟩] := by
    simp [← hbuilder, methodRows, empty, Array.ofFn_succ]
  have hsorted : builder.localScopes.toList.mergeSort
      (fun a b => DebugTables.scopeLE a.1 b.1) = builder.localScopes.toList := by
    apply List.mergeSort_of_pairwise
    subst hbuilder
    refine .cons ?_ (List.pairwise_singleton _ _)
    intro record hrecord
    rw [List.mem_singleton.mp hrecord]
    rfl
  have hscopes : numberScopes 1 (builder.localScopes.toList.mergeSort fun a b =>
      DebugTables.scopeLE a.1 b.1) #[] #[] =
      .ok (#[⟨1, 1, 1, 1, 1, 0, 10⟩, ⟨2, 1, 1, (slots.size + 1).toUInt32, 1, 0, 5⟩], slots) := by
    have hlist : nextRow slots.size = .ok (slots.size + 1).toUInt32 := if_pos hroom
    rw [hsorted]
    subst hbuilder
    refine bind_eq_ok_iff.mpr ⟨1, rfl, bind_eq_ok_iff.mpr ⟨1, rfl,
      bind_eq_ok_iff.mpr ⟨slots, hslots, ?_⟩⟩⟩
    exact bind_eq_ok_iff.mpr ⟨2, rfl, bind_eq_ok_iff.mpr ⟨_, hlist,
      bind_eq_ok_iff.mpr ⟨slots, rfl, rfl⟩⟩⟩
  have hmachines : numberMachines (builder.machines.toList.mergeSort fun a b => a.1 ≤ b.1) #[] =
      .ok #[] := by
    simp [← hbuilder, empty, numberMachines]
  have hinfo : sortInfo builder.customInfo.toList = .ok [] := by
    simp [← hbuilder, empty, sortInfo_nil]
  rw [finish_eq_ok hexcess hscopes hmachines hinfo rfl, hmethods]
  subst hbuilder
  simp only [empty]
  rfl

/-- A module with one method and no other rows. -/
def oneMethod : RowCounts :=
  RowCounts.none.setTable .methodDef 1

/-- Both scopes have the global scope of imports, and nothing else refers to anything. -/
theorem refersBack_nestedScopes (number : Nat) (tables : DebugTables) :
    RefersBack (history (nestedScopes number)) tables 1 oneMethod := by
  obtain ⟨scopeKeys, hperform⟩ := perform_nestedScopes number
  rw [history, hperform]
  exact {
    methods := by decide
    documents := fun _ hmem => absurd hmem List.not_mem_nil
    importScopes := by
      intro scope hscope
      have hboth : scope = ⟨(Token.methodDef 1).row, globalScope, 0, 10,
          List.replicate number ⟨0, "", 0⟩⟩ ∨
          scope = ⟨(Token.methodDef 1).row, globalScope, 0, 5, []⟩ := by
        simpa [nestedScopes, additions] using hscope
      rcases hboth with rfl | rfl
      · exact .inl rfl
      · exact .inl rfl
    machines := fun _ hmem => absurd hmem List.not_mem_nil
    parents := fun _ hmem => absurd hmem List.not_mem_nil }

/-- Two scopes with one variable are written. -/
theorem encode_of_finish_oneVariable : ∃ data,
    (ofOperations (nestedScopes 1)).finish 1 = .ok (nestedTables #[⟨1, 0, 0, 0⟩]) ∧
      RefersBack (history (nestedScopes 1)) (nestedTables #[⟨1, 0, 0, 0⟩]) 1 oneMethod ∧
      (nestedTables #[⟨1, 0, 0, 0⟩]).encode .zero ⟨0⟩ oneMethod = .ok data := by
  have hfinish : (ofOperations (nestedScopes 1)).finish 1 = .ok (nestedTables #[⟨1, 0, 0, 0⟩]) :=
    finish_nestedScopes rfl (by decide)
  have hrefers := refersBack_nestedScopes 1 (nestedTables #[⟨1, 0, 0, 0⟩])
  have hfits : ¬ (nestedTables #[⟨1, 0, 0, 0⟩]).OverrunsVariables := fun hoverruns =>
    absurd hoverruns.1 (by decide)
  obtain ⟨form, hform, hencode⟩ := (encode_of_finish hfinish hrefers).1 hfits
  have hsize : ((nestedTables #[⟨1, 0, 0, 0⟩]).encodeStream oneMethod).toOption.map (fun form =>
      Root.encodedSize Container.version
        ((nestedTables #[⟨1, 0, 0, 0⟩]).streams .zero ⟨0⟩ oneMethod form)) = some 260 := by
    decide +kernel
  rw [hform] at hsize
  have hsmall : Root.encodedSize Container.version
      ((nestedTables #[⟨1, 0, 0, 0⟩]).streams .zero ⟨0⟩ oneMethod form) = 260 :=
    Option.some.inj hsize
  obtain ⟨data, hdata, _⟩ := hencode .zero ⟨0⟩ (hsmall ▸ by decide)
  exact ⟨data, hfinish, hrefers, hdata⟩

/-- Two scopes with 65535 variables are finished, and no container has them. -/
theorem encode_overruns : ∃ tables,
    (ofOperations (nestedScopes 65535)).finish 1 = .ok tables ∧
      RefersBack (history (nestedScopes 65535)) tables 1 oneMethod ∧
      ∀ (id : ContentId) (entryPoint : Token),
        tables.encode id entryPoint oneMethod = reject (.narrowIndex 0x10000) := by
  have hroom : (#[] : Array LocalVariableRow).size +
      (List.replicate 65535 (⟨0, 0, 0, 0⟩ : LocalVariableRow)).length ≤ 0xFFFFFF := by
    rw [List.length_replicate, Array.size_empty]
    omega
  obtain ⟨slots, hslots, hsize⟩ := exists_numberVariables _ hroom
  rw [List.length_replicate, Array.size_empty, Nat.zero_add] at hsize
  have hfinish := finish_nestedScopes hslots (by omega)
  have hrefers := refersBack_nestedScopes 65535 (nestedTables slots)
  have hoverruns : (nestedTables slots).OverrunsVariables := by
    refine ⟨hsize, ⟨2, 1, 1, (slots.size + 1).toUInt32, 1, 0, 5⟩, by simp [nestedTables], ?_⟩
    rw [hsize]
    rfl
  refine ⟨nestedTables slots, hfinish, hrefers, ?_⟩
  intro id entryPoint
  exact bind_eq_error_iff.mpr
    (.inl ((refersWithin_of_finish hfinish hrefers).encodeStream_eq_error hoverruns))

end DebugBuilder

end PortablePdb
