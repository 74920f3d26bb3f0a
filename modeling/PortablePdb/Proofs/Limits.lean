import PortablePdb.Proofs.Closure
import PortablePdb.Proofs.Room

namespace PortablePdb

open BlobHeap HeapBuilders

namespace DebugBuilder

/-- No table has as many rows as tokens can number, and the heap of blobs stays below 512 megabytes
with some more bytes. -/
structure IsWithin (builder : DebugBuilder) (bytes : Nat) : Prop where
  documents : builder.documents.size < 0xFFFFFF
  importScopes : builder.importScopes.size < 0xFFFFFF
  localScopes : builder.localScopes.size < 0xFFFFFF
  machines : builder.machines.size < 0xFFFFFF
  customInfo : builder.customInfo.size < 0xFFFFFF
  blobs : builder.heaps.blobs.size + bytes < 0x20000000

/-- A builder is beyond its limits, or it would be with a value that was refused. -/
def Exceeds (error : Error) (builder : DebugBuilder) : Prop :=
  ¬ builder.IsWithin error.refusedBytes

variable {builder after : DebugBuilder} {count : UInt32}

section Failures

variable {α : Type}

theorem yields_onHeaps {action : EStateM Error HeapBuilders α} (hplain : builder.heaps.IsPlain)
    (haction : StaysPlain action) :
    Yields (fun _ after => ∃ heaps, heaps.IsPlain ∧ after = { builder with heaps }) Exceeds
      (onHeaps action) builder := by
  apply Yields.of_run
  · intro a after hrun
    obtain ⟨heaps, hheaps, rfl⟩ := run_onHeaps_eq_ok_iff.mp hrun
    exact ⟨heaps, (haction _ hplain).of_ok hheaps, rfl⟩
  · intro error after hrun hwithin
    obtain ⟨heaps, hheaps, rfl⟩ := run_onHeaps_eq_error_iff.mp hrun
    exact absurd hwithin.blobs (Nat.not_lt.mpr ((haction _ hplain).of_error hheaps))

/-- A row is refused a number only if its table is full. -/
theorem yields_nextRow {succeeds : α → DebugBuilder → Prop} {size : Nat}
    {rest : UInt32 → EStateM Error DebugBuilder α}
    (hsize : ∀ bytes, builder.IsWithin bytes → size < 0xFFFFFF)
    (hrest : ∀ rid, Yields succeeds Exceeds (rest rid) builder) :
    Yields succeeds Exceeds (orFail (nextRow size) >>= rest) builder := by
  unfold nextRow
  split
  · exact hrest _
  · next hfull => exact fun hwithin => hfull (hsize _ hwithin)

theorem checkMethod_eq {method : Token} (hmethod : method.isTable .methodDef = true) :
    checkMethod method = pure () :=
  if_pos hmethod

theorem yields_addCustomInfo (hplain : builder.heaps.IsPlain) {parent : CodedIndex} {key : UInt32}
    (hparent : parent.encode .hasCustomDebugInformation = .ok key) {kind : CustomKind}
    (hkind : kind ∈ CustomKind.known) (value : Bytes) :
    Yields (fun _ after => after.heaps.IsPlain) Exceeds (addCustomInfo parent kind value)
      builder := by
  have hboth := (staysPlain_addGuid (guid_mem_knownGuids hkind)).bind fun guid =>
    (staysPlain_addBlob value).bind fun blob => .pure (guid, blob)
  have hfirst : Yields (fun _ after => after = builder) Exceeds
      (discard (orFail (parent.encode .hasCustomDebugInformation))) builder := by
    rw [hparent]
    exact .discard (.pure rfl)
  refine hfirst.bind ?_
  rintro _ _ rfl
  refine (yields_onHeaps hplain hboth).bind ?_
  rintro _ _ ⟨heaps, hheaps, rfl⟩
  exact hheaps

theorem yields_addDocument (hplain : builder.heaps.IsPlain) {document : SourceDocument}
    (hnew : builder.documentRows.contains document.path = false) :
    Yields (fun _ after => after.heaps.IsPlain) Exceeds (addDocument document) builder := by
  refine .get_bind (.guard (by simp [hnew]) (.get_bind ?_))
  refine yields_nextRow (fun _ hwithin => hwithin.documents) fun rid => ?_
  refine (yields_onHeaps hplain (staysPlain_documentRow document rid)).bind ?_
  rintro row _ ⟨heaps, hheaps, rfl⟩
  have hsource {next : DebugBuilder} (hnext : next.heaps.IsPlain) :
      Yields (fun _ after => after.heaps.IsPlain) Exceeds
        (addCustomInfo ⟨.document, rid⟩ .embeddedSource document.embedded) next :=
    yields_addCustomInfo hnext rfl List.mem_cons_self document.embedded
  exact .modify_bind ((hsource hheaps).bind fun _ _ hafter => .pure hafter)

theorem yields_addImportScope (hplain : builder.heaps.IsPlain) {parent : UInt32}
    (hparent : parent ≠ 0 ∧ parent.toNat ≤ builder.importScopes.size) (names : NameSet) :
    Yields (fun _ after => after.heaps.IsPlain) Exceeds (addImportScope parent names) builder := by
  refine .get_bind (.guard (by simpa [hparent.1] using hparent.2) ?_)
  refine (yields_onHeaps hplain (staysPlain_imports names.toList)).bind ?_
  rintro _ _ ⟨heaps, hheaps, rfl⟩
  refine .get_bind (yields_nextRow (fun _ hwithin => hwithin.importScopes) fun rid => ?_)
  exact .modify_bind (.pure hheaps)

theorem yields_addMethod (hplain : builder.heaps.IsPlain) {method : Token}
    (hmethod : method.isTable .methodDef = true) (document : UInt32) (points : Option Bytes) :
    Yields (fun _ after => after.heaps.IsPlain) Exceeds (addMethod method document points)
      builder := by
  rw [addMethod, checkMethod_eq hmethod, pure_bind]
  apply Yields.get_bind
  split
  · exact .pure hplain
  · cases points with
    | none => exact hplain
    | some blob =>
      refine (yields_onHeaps hplain (staysPlain_addBlob blob)).bind ?_
      rintro _ _ ⟨heaps, hheaps, rfl⟩
      exact hheaps

theorem yields_addLocalScope (hplain : builder.heaps.IsPlain) {method : Token}
    (hmethod : method.isTable .methodDef = true) (importScope start length : UInt32) :
    Yields (fun _ after => after.heaps.IsPlain) Exceeds
      (addLocalScope method importScope start length []) builder := by
  rw [addLocalScope, checkMethod_eq hmethod, pure_bind]
  apply Yields.get_bind
  dsimp only
  split
  · exact .pure hplain
  · exact hplain

theorem yields_addStateMachine (hplain : builder.heaps.IsPlain) {moveNext kickoff : Token}
    (hmoveNext : moveNext.isTable .methodDef = true)
    (hkickoff : kickoff.isTable .methodDef = true) :
    Yields (fun _ after => after.heaps.IsPlain) Exceeds (addStateMachine moveNext kickoff)
      builder := by
  rw [addStateMachine, checkMethod_eq hmoveNext, checkMethod_eq hkickoff, pure_bind, pure_bind]
  exact hplain

end Failures

/-- What custom debug information is about is a document that there is, or one of some number of
methods. -/
def HasParent (builder : DebugBuilder) (count : UInt32) (parent : CodedIndex) : Prop :=
  parent.table = .document ∧ parent.row.toNat ≤ builder.documents.size ∨
    parent.table = .methodDef ∧ parent.row ≤ count

theorem HasParent.exists_encode {parent : CodedIndex} (hparent : builder.HasParent count parent) :
    ∃ key, parent.encode .hasCustomDebugInformation = .ok key := by
  obtain ⟨table, row⟩ := parent
  obtain ⟨rfl, _⟩ | ⟨rfl, _⟩ := hparent <;> exact ⟨_, rfl⟩

/-- Records refer to rows that there are, to one of some number of methods, and to what the heaps
hold. -/
structure Refers (builder : DebugBuilder) (count : UInt32) : Prop where
  heaps : builder.heaps.IsPlain
  documents : ∀ row ∈ builder.documents, ∃ document,
    row.Describes builder.heaps.blobs.data builder.heaps.guids.data document
  methods : ∀ (row : UInt32) (entry : UInt32 × UInt32), builder.methods[row]? = some entry →
    row ≤ count ∧ entry.1.toNat ≤ builder.documents.size ∧
      (entry.2 = 0 ∨ ∃ points, HasBlob builder.heaps.blobs.data entry.2 points)
  global : 0 < builder.importScopes.size
  importScopes : ∀ row ∈ builder.importScopes, row.parent.toNat ≤ builder.importScopes.size ∧
    ∃ names, row.Imports builder.heaps.blobs.data names
  localScopes : ∀ scope ∈ builder.localScopes, scope.1.method ≤ count ∧
    scope.1.importScope.toNat ≤ builder.importScopes.size ∧ scope.2 = []
  machines : ∀ machine ∈ builder.machines, machine.1 ≤ count ∧ machine.2 ≤ count
  customInfo : ∀ record ∈ builder.customInfo, builder.HasParent count record.1 ∧
    ∃ info, StoresInfo builder.heaps.blobs.data builder.heaps.guids.data record info

theorem refers_empty (count : UInt32) : empty.Refers count where
  heaps := isPlain_empty
  documents := by simp [empty]
  methods := by simp [empty]
  global := by decide
  importScopes := by
    simp only [empty, List.mem_toArray, List.mem_singleton, forall_eq]
    exact ⟨Nat.zero_le _, [], #[], hasBlob_empty isSound_empty.blobs.empty_at, rfl⟩
  localScopes := by simp [empty]
  machines := by simp [empty]
  customInfo := by simp [empty]

theorem Refers.grow (hrefers : builder.Refers count) {heaps : HeapBuilders}
    (hheaps : heaps.Extends builder.heaps) (hplain : heaps.IsPlain) :
    Refers { builder with heaps } count where
  heaps := hplain
  documents row hrow := by
    obtain ⟨document, hdocument⟩ := hrefers.documents row hrow
    exact ⟨document, hheaps.describes hdocument⟩
  methods row entry hentry := by
    obtain ⟨hrow, hdocument, hpoints⟩ := hrefers.methods row entry hentry
    exact ⟨hrow, hdocument, hpoints.imp_right fun ⟨points, hblob⟩ =>
      ⟨points, hheaps.hasBlob hblob⟩⟩
  global := hrefers.global
  importScopes row hrow := by
    obtain ⟨hparent, names, hnames⟩ := hrefers.importScopes row hrow
    exact ⟨hparent, names, hheaps.imports hnames⟩
  localScopes := hrefers.localScopes
  machines := hrefers.machines
  customInfo record hrecord := by
    obtain ⟨hparent, info, hinfo⟩ := hrefers.customInfo record hrecord
    exact ⟨hparent, info, hheaps.storesInfo hinfo⟩

/-- A builder comes from another one by records that refer to what is there, none of which is a
document. -/
structure Follows (after builder : DebugBuilder) (count : UInt32) : Prop where
  refers : after.Refers count
  documents : after.documents = builder.documents
  documentRows : after.documentRows = builder.documentRows
  importScopes : builder.importScopes.size ≤ after.importScopes.size

theorem Refers.follows_self (hrefers : builder.Refers count) : builder.Follows builder count :=
  ⟨hrefers, rfl, rfl, Nat.le_refl _⟩

theorem Follows.trans {last : DebugBuilder} (hlast : last.Follows after count)
    (hafter : after.Follows builder count) : last.Follows builder count where
  refers := hlast.refers
  documents := hlast.documents.trans hafter.documents
  documentRows := hlast.documentRows.trans hafter.documentRows
  importScopes := hafter.importScopes.trans hlast.importScopes

/-- Custom debug information is added if it is about what is there. -/
theorem Refers.addCustomInfo (hrefers : builder.Refers count) {parent : CodedIndex}
    (hparent : builder.HasParent count parent) {kind : CustomKind}
    (hkind : kind ∈ CustomKind.known) (value : Bytes) :
    Yields (fun _ after => after.Follows builder count) Exceeds (addCustomInfo parent kind value)
      builder := by
  obtain ⟨key, hkey⟩ := hparent.exists_encode
  refine (yields_addCustomInfo hrefers.heaps hkey hkind value).imp fun _ after hrun hplain => ?_
  obtain ⟨_, heaps, record, hheaps, hrecord, rfl⟩ := run_addCustomInfo hrun hrefers.heaps.toIsSound
  have hgrown := hrefers.grow hheaps hplain
  refine ⟨{ hgrown with customInfo := ?_ }, rfl, rfl, Nat.le_refl _⟩
  intro other hother
  rcases Array.mem_push.mp hother with hold | rfl
  · exact hgrown.customInfo other hold
  · exact ⟨hrecord.parent ▸ hparent, _, hrecord⟩

/-- A document with a new path is added behind the others. -/
theorem Refers.addDocument (hrefers : builder.Refers count) {document : SourceDocument}
    (hnew : builder.documentRows.contains document.path = false) :
    Yields (fun rid after => after.Refers count ∧ rid.toNat ≤ after.documents.size ∧
        after.documentRows = builder.documentRows.insert document.path rid)
      Exceeds (addDocument document) builder := by
  refine (yields_addDocument hrefers.heaps hnew).imp fun rid after hrun hplain => ?_
  obtain ⟨heaps, row, record, hheaps, hnext, _, hdescribes, hrecord, rfl⟩ :=
    run_addDocument hrun hrefers.heaps.toIsSound
  have hgrown := hrefers.grow hheaps hplain
  have hsize : (builder.documents.push row).size = builder.documents.size + 1 := Array.size_push _
  have hrid : rid.toNat ≤ (builder.documents.push row).size := by
    rw [(nextRow_eq_ok hnext).1, hsize]
  refine ⟨{ hgrown with documents := ?_, methods := ?_, customInfo := ?_ }, hrid, rfl⟩
  · intro other hother
    rcases Array.mem_push.mp hother with hold | rfl
    · exact hgrown.documents other hold
    · exact ⟨document, hdescribes⟩
  · intro method entry hentry
    obtain ⟨hmethod, hdocument, hpoints⟩ := hgrown.methods method entry hentry
    exact ⟨hmethod, hdocument.trans (by simp only [hsize]; omega), hpoints⟩
  · intro other hother
    rcases Array.mem_push.mp hother with hold | rfl
    · obtain ⟨hparent, hinfo⟩ := hgrown.customInfo other hold
      refine ⟨hparent.imp_left fun ⟨htable, hle⟩ => ⟨htable, hle.trans ?_⟩, hinfo⟩
      simp only [hsize]
      omega
    · exact ⟨.inl ⟨congrArg CodedIndex.table hrecord.parent,
        (congrArg CodedIndex.row hrecord.parent) ▸ hrid⟩, _, hrecord⟩

/-- The number of a scope of imports that there is. -/
def HasImports (builder : DebugBuilder) (row : UInt32) : Prop :=
  row ≠ 0 ∧ row.toNat ≤ builder.importScopes.size

theorem Refers.hasImports_globalScope (hrefers : builder.Refers count) :
    builder.HasImports globalScope :=
  ⟨by decide, hrefers.global⟩

theorem Follows.hasImports (hafter : after.Follows builder count) {row : UInt32}
    (hrow : builder.HasImports row) : after.HasImports row :=
  ⟨hrow.1, hrow.2.trans hafter.importScopes⟩

/-- A scope of imports is added within one that is there. -/
theorem Refers.addImportScope (hrefers : builder.Refers count) {parent : UInt32}
    (hparent : builder.HasImports parent) (names : NameSet) :
    Yields (fun rid after => after.Follows builder count ∧ after.HasImports rid) Exceeds
      (addImportScope parent names) builder := by
  refine (yields_addImportScope hrefers.heaps hparent names).imp fun rid after hrun hplain => ?_
  obtain ⟨_, heaps, row, hheaps, hnext, _, hrow, himports, rfl⟩ :=
    run_addImportScope hrun hrefers.heaps.toIsSound
  have hgrown := hrefers.grow hheaps hplain
  have hsize : (builder.importScopes.push row).size = builder.importScopes.size + 1 :=
    Array.size_push _
  obtain ⟨hrid, _⟩ := nextRow_eq_ok hnext
  have hle {number : UInt32} (hnumber : number.toNat ≤ builder.importScopes.size) :
      number.toNat ≤ (builder.importScopes.push row).size :=
    hnumber.trans (by omega)
  refine ⟨⟨{ hgrown with global := ?_, importScopes := ?_, localScopes := ?_ }, rfl, rfl, ?_⟩,
    ?_, ?_⟩
  · simp only [hsize]
    omega
  · intro other hother
    rcases Array.mem_push.mp hother with hold | rfl
    · obtain ⟨hother, hnames⟩ := hgrown.importScopes other hold
      exact ⟨hle hother, hnames⟩
    · exact ⟨hle (hrow ▸ hparent.2), _, himports⟩
  · intro scope hscope
    obtain ⟨hmethod, himport, hslots⟩ := hgrown.localScopes scope hscope
    exact ⟨hmethod, hle himport, hslots⟩
  · simp only [hsize]
    omega
  · rintro rfl
    simp at hrid
  · simp only [hsize]
    omega

/-- The scope of a method of the module is added with a scope of imports that is there. -/
theorem Refers.addLocalScope (hrefers : builder.Refers count) {method : Token}
    (hmethod : method.IsMethodWithin count) {importScope : UInt32}
    (himport : builder.HasImports importScope) (start length : UInt32) :
    Yields (fun _ after => after.Follows builder count) Exceeds
      (addLocalScope method importScope start length []) builder := by
  refine (yields_addLocalScope hrefers.heaps hmethod.1 importScope start length).imp
    fun isFirst after hrun hplain => ?_
  obtain ⟨_, ⟨_, rfl⟩ | ⟨_, rfl⟩⟩ := run_addLocalScope_nil hrun
  · exact hrefers.follows_self
  · refine ⟨{ hrefers with localScopes := ?_ }, rfl, rfl, Nat.le_refl _⟩
    intro scope hscope
    rcases Array.mem_push.mp hscope with hold | rfl
    · exact hrefers.localScopes scope hold
    · exact ⟨hmethod.2, himport.2, rfl⟩

/-- A method of the module is submitted with a document that is there. -/
theorem Refers.addMethod (hrefers : builder.Refers count) {method : Token}
    (hmethod : method.IsMethodWithin count) {document : UInt32}
    (hdocument : document.toNat ≤ builder.documents.size) (points : Option Bytes) :
    Yields (fun _ after => after.Follows builder count) Exceeds (addMethod method document points)
      builder := by
  refine (yields_addMethod hrefers.heaps hmethod.1 document points).imp
    fun isFirst after hrun hplain => ?_
  obtain ⟨_, _, hknown, hnew⟩ := run_addMethod hrun hrefers.heaps.toIsSound
  cases isFirst with
  | false =>
    obtain rfl := hknown rfl
    exact hrefers.follows_self
  | true =>
    obtain ⟨heaps, entry, hheaps, hpoints, hempty, rfl⟩ := hnew rfl
    have hgrown := hrefers.grow hheaps hplain
    refine ⟨{ hgrown with methods := ?_ }, rfl, rfl, Nat.le_refl _⟩
    intro row found hfound
    simp only [Std.HashMap.getElem?_insert] at hfound
    split at hfound
    · next hsame =>
      cases hfound
      rw [← eq_of_beq hsame]
      refine ⟨hmethod.2, ?_⟩
      cases points with
      | none =>
        rw [hempty rfl]
        exact ⟨Nat.zero_le _, .inl rfl⟩
      | some blob =>
        obtain ⟨hsame, hblob⟩ := hpoints blob rfl
        exact ⟨hsame ▸ hdocument, .inr ⟨blob, hblob⟩⟩
    · exact hgrown.methods row found hfound

/-- A state machine of methods of the module is added. -/
theorem Refers.addStateMachine (hrefers : builder.Refers count) {moveNext kickoff : Token}
    (hmoveNext : moveNext.IsMethodWithin count) (hkickoff : kickoff.IsMethodWithin count) :
    Yields (fun _ after => after.Follows builder count) Exceeds (addStateMachine moveNext kickoff)
      builder := by
  refine (yields_addStateMachine hrefers.heaps hmoveNext.1 hkickoff.1).imp fun _ after hrun _ => ?_
  obtain rfl := run_addStateMachine hrun
  refine ⟨{ hrefers with machines := ?_ }, rfl, rfl, Nat.le_refl _⟩
  intro machine hmachine
  rcases Array.mem_push.mp hmachine with hold | rfl
  · exact hrefers.machines machine hold
  · exact ⟨hmoveNext.2, hkickoff.2⟩

end DebugBuilder

end PortablePdb
