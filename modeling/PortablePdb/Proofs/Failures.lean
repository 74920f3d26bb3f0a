import PortablePdb.Proofs.Operations

namespace PortablePdb

namespace DebugBuilder

open HeapBuilders

variable {builder after : DebugBuilder} {error : Error}

/-- What a refused operation may leave beside bytes in the heaps: a range of a scope that is taken,
or a document whose source had no room. -/
structure Leaves (builder after : DebugBuilder) : Prop where
  documents : after.documents = builder.documents ∧ after.documentRows = builder.documentRows ∨
    ∃ (row : DocumentRow) (path : String), nextRow builder.documents.size = .ok row.rid ∧
      after.documents = builder.documents.push row ∧
      after.documentRows = builder.documentRows.insert path row.rid
  methods : after.methods = builder.methods
  importScopes : after.importScopes = builder.importScopes
  localScopes : after.localScopes = builder.localScopes
  scopeKeys : after.scopeKeys = builder.scopeKeys ∨
    ∃ key, after.scopeKeys = builder.scopeKeys.insert key
  machines : after.machines = builder.machines
  customInfo : after.customInfo = builder.customInfo

theorem leaves_self (builder : DebugBuilder) : builder.Leaves builder where
  documents := .inl ⟨rfl, rfl⟩
  methods := rfl
  importScopes := rfl
  localScopes := rfl
  scopeKeys := .inl rfl
  machines := rfl
  customInfo := rfl

theorem Leaves.contains_scopeKeys (hleaves : builder.Leaves after) {key : UInt32 × UInt32 × UInt32}
    (hkey : builder.scopeKeys.contains key = true) : after.scopeKeys.contains key = true := by
  rcases hleaves.scopeKeys with hsame | ⟨other, hmore⟩
  · rw [hsame, hkey]
  · rw [hmore, Std.HashSet.contains_insert, hkey, Bool.or_true]

/-- An operation fails with an error. It changes nothing if there is room and no zero byte in a
name; such a byte takes the range of a scope that was free. A document that stays has its parts in
the heaps. -/
structure Fails (builder : DebugBuilder) (error : Error) (after : DebugBuilder) : Prop
    extends builder.Leaves after where
  stays : ∀ row ∈ after.documents, row ∈ builder.documents ∨
    ∃ (document : SourceDocument) (heaps : HeapBuilders),
      (documentRow document row.rid).run builder.heaps = .ok row heaps ∧
        heaps.GrowsTo after.heaps
  unchanged : error.isTooLarge = false → error.isZeroByte = false → after = builder
  taken : error.isZeroByte = true → ∃ (method : Token) (start length : UInt32),
    method.isTable .methodDef = true ∧
      builder.scopeKeys.contains (method.row, start, length) = false ∧
      after.scopeKeys.contains (method.row, start, length) = true

theorem fails_self (builder : DebugBuilder) (hzero : error.isZeroByte = false) :
    builder.Fails error builder :=
  { leaves_self builder with
    stays := fun _ hrow => .inl hrow
    unchanged := fun _ _ => rfl
    taken := fun hrefused => absurd hrefused (by simp [hzero]) }

/-- Other heaps are all that is left when there was no room for something. -/
theorem fails_of_isTooLarge (heaps : HeapBuilders) (hlarge : error.isTooLarge = true) :
    builder.Fails error { builder with heaps } :=
  { fails_self builder (Error.isZeroByte_eq_false hlarge) with
    stays := fun _ hrow => .inl hrow
    unchanged := fun hsmall => absurd hlarge (by simp [hsmall]) }

/-- An action on the heaps fails for want of room. -/
theorem run_onHeaps_error {α : Type} {action : EStateM Error HeapBuilders α}
    (haction : Confined GrowsTo (fun error : Error => error.isTooLarge = true) action)
    (hrun : (onHeaps action).run builder = .error error after) :
    error.isTooLarge = true ∧ ∃ heaps, after = { builder with heaps } := by
  obtain ⟨heaps, hfails, rfl⟩ := run_onHeaps_eq_error_iff.mp hrun
  exact ⟨(haction.of_error hfails).2, heaps, rfl⟩

/-- A record of custom debug information is refused for its parent, or there is no room for it. -/
theorem run_addCustomInfo_error {parent : CodedIndex} {kind : CustomKind} {value : Bytes}
    (hrun : (addCustomInfo parent kind value).run builder = .error error after) :
    parent.encode .hasCustomDebugInformation = .error error ∧ after = builder ∨
      error.isTooLarge = true ∧ ∃ heaps, after = { builder with heaps } := by
  obtain hparent | ⟨_, _, hparent, hrun⟩ := run_bind_eq_error_iff.mp hrun
  · obtain ⟨hencode, rfl⟩ := run_orFail_eq_error_iff.mp (run_discard_eq_error_iff.mp hparent)
    exact .inl ⟨hencode, rfl⟩
  · obtain ⟨_, hparent⟩ := run_discard_eq_ok_iff.mp hparent
    obtain ⟨_, rfl⟩ := run_orFail_eq_ok_iff.mp hparent
    obtain hheaps | ⟨_, _, _, hmodify⟩ := run_bind_eq_error_iff.mp hrun
    · exact .inr (run_onHeaps_error ((confined_addGuid _).bind fun _ =>
        (confined_addBlob _).bind fun _ => .pure _) hheaps)
    · exact absurd hmodify run_modify_ne_error

theorem isZeroByte_of_encode {parent : CodedIndex} {kind : CodedKind}
    (hencode : parent.encode kind = .error error) : error.isZeroByte = false := by
  unfold CodedIndex.encode at hencode
  split at hencode <;> cases hencode
  rfl

theorem fails_addCustomInfo {parent : CodedIndex} {kind : CustomKind} {value : Bytes}
    (hrun : (addCustomInfo parent kind value).run builder = .error error after) :
    builder.Fails error after := by
  obtain ⟨hencode, rfl⟩ | ⟨hlarge, heaps, rfl⟩ := run_addCustomInfo_error hrun
  · exact fails_self after (isZeroByte_of_encode hencode)
  · exact fails_of_isTooLarge heaps hlarge

theorem rid_of_documentRow {document : SourceDocument} {rid : UInt32} {row : DocumentRow}
    {heaps later : HeapBuilders} (hrun : (documentRow document rid).run heaps = .ok row later) :
    row.rid = rid := by
  obtain ⟨_, _, _, hrun⟩ := run_bind_eq_ok_iff.mp hrun
  obtain ⟨_, _, _, hrun⟩ := run_bind_eq_ok_iff.mp hrun
  obtain ⟨_, _, _, hrun⟩ := run_bind_eq_ok_iff.mp hrun
  obtain ⟨_, _, _, hrun⟩ := run_bind_eq_ok_iff.mp hrun
  obtain ⟨_, _, _, hrun⟩ := run_bind_eq_ok_iff.mp hrun
  obtain ⟨rfl, _⟩ := run_pure_eq_ok_iff.mp hrun
  rfl

theorem fails_addDocument {document : SourceDocument}
    (hrun : (addDocument document).run builder = .error error after) :
    builder.Fails error after := by
  rw [addDocument, run_get_bind_eq_error_iff] at hrun
  obtain ⟨_, rfl, rfl⟩ | ⟨_, hrun⟩ := run_guard_eq_error_iff.mp hrun
  · exact fails_self builder rfl
  rw [run_get_bind_eq_error_iff] at hrun
  obtain hrid | ⟨rid, _, hrid, hrun⟩ := run_bind_eq_error_iff.mp hrun
  · obtain ⟨hnext, rfl⟩ := run_orFail_eq_error_iff.mp hrid
    exact fails_self builder (nextRow_eq_error hnext ▸ rfl)
  obtain ⟨hnext, rfl⟩ := run_orFail_eq_ok_iff.mp hrid
  obtain hstep | ⟨row, _, hstep, hrun⟩ := run_bind_eq_error_iff.mp hrun
  · obtain ⟨hlarge, heaps, rfl⟩ := run_onHeaps_error (confined_documentRow _ _) hstep
    exact fails_of_isTooLarge heaps hlarge
  obtain ⟨heaps, hrow, rfl⟩ := run_onHeaps_eq_ok_iff.mp hstep
  obtain hmodify | ⟨_, _, hmodify, hrun⟩ := run_bind_eq_error_iff.mp hrun
  · exact absurd hmodify run_modify_ne_error
  obtain rfl := run_modify_eq_ok_iff.mp hmodify
  -- The document is there already, and its source is refused only for want of room.
  have hsource := run_bind_pure_eq_error_iff.mp hrun
  have hgrows := ((keepsHeaps_addCustomInfo _ _ _).of_error hsource).1
  obtain ⟨hencode, _⟩ | ⟨hlarge, later, rfl⟩ := run_addCustomInfo_error hsource
  · cases hencode
  · obtain rfl := rid_of_documentRow hrow
    exact { fails_self builder (Error.isZeroByte_eq_false hlarge) with
      documents := .inr ⟨row, document.path, hnext, rfl, rfl⟩
      stays := by
        intro other hother
        rcases Array.mem_push.mp hother with hold | rfl
        · exact .inl hold
        · exact .inr ⟨document, heaps, hrow, hgrows⟩
      unchanged := fun hsmall => absurd hlarge (by simp [hsmall]) }

theorem fails_addImportScope {parent : UInt32} {names : NameSet}
    (hrun : (addImportScope parent names).run builder = .error error after) :
    builder.Fails error after := by
  rw [addImportScope, run_get_bind_eq_error_iff] at hrun
  obtain ⟨_, rfl, rfl⟩ | ⟨_, hrun⟩ := run_guard_eq_error_iff.mp hrun
  · exact fails_self builder rfl
  obtain hstep | ⟨_, _, hstep, hrun⟩ := run_bind_eq_error_iff.mp hrun
  · obtain ⟨hlarge, heaps, rfl⟩ := run_onHeaps_error
      ((confined_onBlobs (Imports.confined_encode names.toList)).bind confined_addBlob) hstep
    exact fails_of_isTooLarge heaps hlarge
  obtain ⟨heaps, _, rfl⟩ := run_onHeaps_eq_ok_iff.mp hstep
  rw [run_get_bind_eq_error_iff] at hrun
  obtain hrid | ⟨_, _, _, hrun⟩ := run_bind_eq_error_iff.mp hrun
  · obtain ⟨hnext, rfl⟩ := run_orFail_eq_error_iff.mp hrid
    exact fails_of_isTooLarge heaps (nextRow_eq_error hnext ▸ rfl)
  · obtain hmodify | ⟨_, _, _, hpure⟩ := run_bind_eq_error_iff.mp hrun
    · exact absurd hmodify run_modify_ne_error
    · exact absurd hpure run_pure_ne_error

/-- A submission that fails leaves a builder as it is. -/
theorem fails_addMethod {method : Token} {document : UInt32} {points : Option Bytes}
    (hrun : (addMethod method document points).run builder = .error error after) :
    builder.Fails error after := by
  obtain hcheck | ⟨_, _, hcheck, hrun⟩ := run_bind_eq_error_iff.mp hrun
  · obtain ⟨_, rfl, rfl⟩ := run_checkMethod_eq_error_iff.mp hcheck
    exact fails_self builder rfl
  obtain ⟨_, rfl⟩ := run_checkMethod_eq_ok_iff.mp hcheck
  rw [run_get_bind_eq_error_iff] at hrun
  split at hrun
  · exact absurd hrun run_pure_ne_error
  cases points with
  | none =>
    obtain hpure | ⟨_, _, _, hrun⟩ := run_bind_eq_error_iff.mp hrun
    · exact absurd hpure run_pure_ne_error
    · exact absurd (run_bind_pure_eq_error_iff.mp hrun) run_modify_ne_error
  | some blob =>
    obtain hstep | ⟨_, _, _, hrun⟩ := run_bind_eq_error_iff.mp hrun
    · obtain ⟨hlarge, heaps, rfl⟩ := run_onHeaps_error (confined_addBlob blob) hstep
      exact fails_of_isTooLarge heaps hlarge
    · obtain hpure | ⟨_, _, _, hrun⟩ := run_bind_eq_error_iff.mp hrun
      · exact absurd hpure run_pure_ne_error
      · exact absurd (run_bind_pure_eq_error_iff.mp hrun) run_modify_ne_error

/-- A state machine that is refused leaves a builder as it is. -/
theorem fails_addStateMachine {moveNext kickoff : Token}
    (hrun : (addStateMachine moveNext kickoff).run builder = .error error after) :
    builder.Fails error after := by
  obtain hcheck | ⟨_, _, hcheck, hrun⟩ := run_bind_eq_error_iff.mp hrun
  · obtain ⟨_, rfl, rfl⟩ := run_checkMethod_eq_error_iff.mp hcheck
    exact fails_self builder rfl
  obtain ⟨_, rfl⟩ := run_checkMethod_eq_ok_iff.mp hcheck
  obtain hcheck | ⟨_, _, _, hrun⟩ := run_bind_eq_error_iff.mp hrun
  · obtain ⟨_, rfl, rfl⟩ := run_checkMethod_eq_error_iff.mp hcheck
    exact fails_self builder rfl
  · exact absurd hrun run_modify_ne_error

/-- A scope that fails was no scope of a method, or it has a variable whose name was refused; in
that case its range is taken. -/
theorem run_addLocalScope_error {method : Token} {importScope start length : UInt32}
    {slots : List LocalVariable}
    (hrun : (addLocalScope method importScope start length slots).run builder =
      .error error after) :
    error = .invalidMethod method ∧ after = builder ∨
      method.isTable .methodDef = true ∧
        builder.scopeKeys.contains (method.row, start, length) = false ∧
        (error.isTooLarge || error.isZeroByte) = true ∧
        ∃ heaps, after = { builder with
          heaps, scopeKeys := builder.scopeKeys.insert (method.row, start, length) } := by
  obtain hcheck | ⟨_, _, hcheck, hrun⟩ := run_bind_eq_error_iff.mp hrun
  · obtain ⟨_, rfl, rfl⟩ := run_checkMethod_eq_error_iff.mp hcheck
    exact .inl ⟨rfl, rfl⟩
  obtain ⟨hmethod, rfl⟩ := run_checkMethod_eq_ok_iff.mp hcheck
  rw [run_get_bind_eq_error_iff] at hrun
  split at hrun
  · exact absurd hrun run_pure_ne_error
  · next hnew =>
    obtain hmodify | ⟨_, _, hmodify, hrun⟩ := run_bind_eq_error_iff.mp hrun
    · exact absurd hmodify run_modify_ne_error
    obtain rfl := run_modify_eq_ok_iff.mp hmodify
    obtain hstep | ⟨_, _, _, hrun⟩ := run_bind_eq_error_iff.mp hrun
    · obtain ⟨heaps, hslots, rfl⟩ := run_onHeaps_eq_error_iff.mp hstep
      have hrefused := ((confined_variableRows slots).of_error hslots).2
      exact .inr ⟨hmethod, by simpa using hnew, hrefused, heaps, rfl⟩
    · obtain hmodify | ⟨_, _, _, hpure⟩ := run_bind_eq_error_iff.mp hrun
      · exact absurd hmodify run_modify_ne_error
      · exact absurd hpure run_pure_ne_error

theorem fails_addLocalScope {method : Token} {importScope start length : UInt32}
    {slots : List LocalVariable}
    (hrun : (addLocalScope method importScope start length slots).run builder =
      .error error after) : builder.Fails error after := by
  obtain ⟨rfl, rfl⟩ | ⟨hmethod, hnew, hrefused, heaps, rfl⟩ := run_addLocalScope_error hrun
  · exact fails_self after rfl
  · exact { leaves_self builder with
      scopeKeys := .inr ⟨_, rfl⟩
      stays := fun _ hrow => .inl hrow
      unchanged := by
        intro hsmall hzero
        rw [hsmall, hzero] at hrefused
        cases hrefused
      taken := fun _ => ⟨method, start, length, hmethod, hnew, Std.HashSet.contains_insert_self⟩ }

/-- Whatever operation fails, it leaves no more than that. -/
theorem Operation.fails {operation : Operation}
    (hrun : operation.run.run builder = .error error after) : builder.Fails error after := by
  cases operation with
  | addDocument document => exact fails_addDocument (run_bind_pure_eq_error_iff.mp hrun)
  | documentRow path => exact absurd hrun run_pure_ne_error
  | addImportScope parent names =>
    exact fails_addImportScope (run_bind_pure_eq_error_iff.mp hrun)
  | importScopeCount => exact absurd hrun run_pure_ne_error
  | addMethod method document points =>
    exact fails_addMethod (run_bind_pure_eq_error_iff.mp hrun)
  | hasMethod method => exact absurd hrun run_pure_ne_error
  | addLocalScope method importScope start length slots =>
    exact fails_addLocalScope (run_bind_pure_eq_error_iff.mp hrun)
  | addStateMachine moveNext kickoff =>
    exact fails_addStateMachine (run_bind_pure_eq_error_iff.mp hrun)
  | addCustomInfo parent kind value =>
    exact fails_addCustomInfo (run_bind_pure_eq_error_iff.mp hrun)

/-- A record that was not added because there was one leaves a builder as it is. -/
theorem Operation.unchanged_of_known {operation : Operation}
    (hrun : operation.run.run builder = .ok (.added false) after)
    (hsound : builder.heaps.IsSound) : after = builder := by
  cases operation.succeeds hrun hsound with
  | knownMethod method document points => rfl
  | knownLocalScope method importScope start length slots => rfl

end DebugBuilder

/-- Tables without the heaps that their rows refer to. -/
def DebugTables.withoutHeaps (tables : DebugTables) : DebugTables :=
  { tables with strings := #[], blobs := #[], guids := #[] }

namespace DebugBuilder

/-- Whether an operation failed because there was no room for something. -/
def Event.lacksRoom : Event → Bool
  | ⟨_, .error error⟩ => error.isTooLarge
  | _ => false

/-- Whether an operation failed because of a zero byte in a name. -/
def Event.hasZeroByte : Event → Bool
  | ⟨_, .error error⟩ => error.isZeroByte
  | _ => false

/-- No later operations tell two builders apart, and neither do the finished tables, except by what
the heaps hold. -/
structure Indistinguishable (first second : DebugBuilder) : Prop where
  outcomes (later : List Operation) : (perform later first).1 = (perform later second).1
  tables (later : List Operation) (count : UInt32) :
    DebugTables.withoutHeaps <$> (perform later first).2.finish count =
      DebugTables.withoutHeaps <$> (perform later second).2.finish count

theorem Indistinguishable.refl (builder : DebugBuilder) : Indistinguishable builder builder :=
  ⟨fun _ => rfl, fun _ _ => rfl⟩

theorem step_addLocalScope_known (builder : DebugBuilder) {method : Token}
    (hmethod : method.isTable .methodDef = true) {start length : UInt32}
    (hknown : builder.scopeKeys.contains (method.row, start, length) = true)
    (importScope : UInt32) (slots : List LocalVariable) :
    (Operation.addLocalScope method importScope start length slots).step builder =
      (⟨.addLocalScope method importScope start length slots, .ok (.added false)⟩, builder) := by
  have hrun : (Operation.addLocalScope method importScope start length slots).run.run builder =
      .ok (.added false) builder :=
    run_bind_eq_ok_iff.mpr ⟨false, _, run_addLocalScope_known hmethod hknown importScope, rfl⟩
  rw [Operation.step, hrun]

theorem step_addLocalScope_rows {builder : DebugBuilder} {method : Token}
    (hmethod : method.isTable .methodDef = true) {start length : UInt32}
    (hnew : builder.scopeKeys.contains (method.row, start, length) = false)
    (importScope : UInt32) {slots : List LocalVariable} {rows : List LocalVariableRow}
    {heaps : HeapBuilders} (hrows : (variableRows slots).run builder.heaps = .ok rows heaps) :
    (Operation.addLocalScope method importScope start length slots).step builder =
      (⟨.addLocalScope method importScope start length slots, .ok (.added true)⟩, { builder with
        heaps
        scopeKeys := builder.scopeKeys.insert (method.row, start, length)
        localScopes := builder.localScopes.push
          (⟨0, method.row, importScope, 0, 0, start, length⟩,
            rows.mergeSort fun a b => a.index ≤ b.index) }) := by
  have hrun : (Operation.addLocalScope method importScope start length slots).run.run builder =
      .ok (.added true) _ :=
    run_bind_eq_ok_iff.mpr
      ⟨true, _, run_addLocalScope_rows hmethod hnew importScope hrows, rfl⟩
  rw [Operation.step, hrun]

theorem step_addLocalScope_new {builder : DebugBuilder} {method : Token}
    (hmethod : method.isTable .methodDef = true) {start length : UInt32}
    (hnew : builder.scopeKeys.contains (method.row, start, length) = false)
    (importScope : UInt32) :
    (Operation.addLocalScope method importScope start length []).step builder =
      (⟨.addLocalScope method importScope start length [], .ok (.added true)⟩, { builder with
        scopeKeys := builder.scopeKeys.insert (method.row, start, length)
        localScopes := builder.localScopes.push
          (⟨0, method.row, importScope, 0, 0, start, length⟩, []) }) := by
  have hrows : (variableRows []).run builder.heaps = .ok [] builder.heaps := rfl
  rw [step_addLocalScope_rows hmethod hnew importScope hrows, List.mergeSort_nil]

/-- A range of a scope that is taken in one builder and free in another one tells them apart. -/
theorem Indistinguishable.contains_scopeKeys {first second : DebugBuilder}
    (hsame : Indistinguishable first second) {method : Token} {start length : UInt32}
    (hmethod : method.isTable .methodDef = true)
    (hfirst : first.scopeKeys.contains (method.row, start, length) = true) :
    second.scopeKeys.contains (method.row, start, length) = true := by
  by_contra hfree
  have houtcomes := hsame.outcomes [.addLocalScope method 0 start length []]
  have hsecond := step_addLocalScope_new hmethod (by simpa using hfree) 0
  simp only [perform, step_addLocalScope_known first hmethod hfirst, hsecond] at houtcomes
  cases houtcomes

/-- An operation that was refused leaves no record, except that a document stays when its source had
no room. If it was refused for another reason than a lack of room it leaves no trace at all, unless
it was for a zero byte in the name of a variable: then the range of the scope is taken. -/
theorem indistinguishable_of_refused_iff (earlier : List Operation) (operation : Operation)
    (hrefused : (operation.step (ofOperations earlier)).1.isRefusal = true) :
    (ofOperations earlier).Leaves (ofOperations (earlier ++ [operation])) ∧
      ((operation.step (ofOperations earlier)).1.lacksRoom = false →
        (Indistinguishable (ofOperations (earlier ++ [operation])) (ofOperations earlier) ↔
          (operation.step (ofOperations earlier)).1.hasZeroByte = false)) := by
  rw [ofOperations_concat]
  have hsound := (isLookup_ofOperations earlier).isSound
  generalize ofOperations earlier = builder at *
  unfold Operation.step at *
  cases hrun : operation.run.run builder with
  | ok answer after =>
    simp only [hrun, Event.isRefusal] at hrefused ⊢
    split at hrefused
    · next hevent => cases hevent
    · next hevent =>
      cases hevent
      obtain rfl : _ = false := by simpa using hrefused
      obtain rfl := operation.unchanged_of_known hrun hsound
      exact ⟨leaves_self after, fun _ => ⟨fun _ => rfl, fun _ => .refl after⟩⟩
    · cases hrefused
  | error error after =>
    have hfails := operation.fails hrun
    refine ⟨hfails.toLeaves, fun hroom => ?_⟩
    simp only [Event.lacksRoom, Event.hasZeroByte] at hroom ⊢
    constructor
    · intro hsame
      by_contra hzero
      obtain ⟨method, start, length, hmethod, hfree, htaken⟩ := hfails.taken (by simpa using hzero)
      rw [hsame.contains_scopeKeys hmethod htaken] at hfree
      cases hfree
    · intro hzero
      obtain rfl := hfails.unchanged hroom hzero
      exact .refl after

theorem step_addCustomInfo {builder : DebugBuilder} {parent : CodedIndex} {key : UInt32}
    (hparent : parent.encode .hasCustomDebugInformation = .ok key) {kind : CustomKind}
    {value : Bytes} {guids : GuidHeap.Builder} {blobs : BlobHeap.Builder} {first second : UInt32}
    (hkind : (GuidHeap.Builder.add kind.guid).run builder.heaps.guids = .ok first guids)
    (hvalue : (BlobHeap.Builder.add value).run builder.heaps.blobs = .ok second blobs) :
    (Operation.addCustomInfo parent kind value).step builder =
      (⟨.addCustomInfo parent kind value, .ok .done⟩, { builder with
        heaps := ⟨builder.heaps.strings, blobs, guids⟩
        customInfo := builder.customInfo.push (parent, first, second) }) := by
  have hrun : (Operation.addCustomInfo parent kind value).run.run builder = .ok .done
      { builder with
        heaps := ⟨builder.heaps.strings, blobs, guids⟩
        customInfo := builder.customInfo.push (parent, first, second) } :=
    run_bind_eq_ok_iff.mpr ⟨(), _, run_addCustomInfo_new hparent hkind hvalue, rfl⟩
  rw [Operation.step, hrun]

theorem perform_cons {builder next after : DebugBuilder} {operation : Operation} {event : Event}
    {operations : List Operation} {events : List Event}
    (hstep : operation.step builder = (event, next))
    (hrest : perform operations next = (events, after)) :
    perform (operation :: operations) builder = (event :: events, after) := by
  simp only [perform, hstep, hrest]

/-- Scopes, state machines and custom debug information of two methods, none of them in the order of
tables. -/
def recorded : List Operation :=
  [.addLocalScope (.methodDef 2) 1 0 8 [], .addLocalScope (.methodDef 1) 1 4 4 [],
    .addLocalScope (.methodDef 1) 1 0 12 [], .addStateMachine (.methodDef 2) (.methodDef 1),
    .addStateMachine (.methodDef 1) (.methodDef 2),
    .addCustomInfo ⟨.methodDef, 2⟩ .asyncStepping #[7],
    .addCustomInfo ⟨.methodDef, 1⟩ .hoistedLocalScopes #[8]]

/-- The builder that records them. -/
def recordedBuilder (blobs : BlobHeap.Builder) (guids : GuidHeap.Builder) : DebugBuilder where
  heaps := { blobs, guids }
  importScopes := #[⟨1, 0, 0⟩]
  localScopes := #[(⟨0, 2, 1, 0, 0, 0, 8⟩, []), (⟨0, 1, 1, 0, 0, 4, 4⟩, []),
    (⟨0, 1, 1, 0, 0, 0, 12⟩, [])]
  scopeKeys := (((∅ : Std.HashSet (UInt32 × UInt32 × UInt32)).insert (2, 0, 8)).insert
    (1, 4, 4)).insert (1, 0, 12)
  machines := #[(2, 1), (1, 2)]
  customInfo := #[(⟨.methodDef, 2⟩, 1, 1), (⟨.methodDef, 1⟩, 2, 3)]

theorem perform_recorded : ∃ blobs guids,
    perform recorded empty =
      ([⟨.addLocalScope (.methodDef 2) 1 0 8 [], .ok (.added true)⟩,
        ⟨.addLocalScope (.methodDef 1) 1 4 4 [], .ok (.added true)⟩,
        ⟨.addLocalScope (.methodDef 1) 1 0 12 [], .ok (.added true)⟩,
        ⟨.addStateMachine (.methodDef 2) (.methodDef 1), .ok .done⟩,
        ⟨.addStateMachine (.methodDef 1) (.methodDef 2), .ok .done⟩,
        ⟨.addCustomInfo ⟨.methodDef, 2⟩ .asyncStepping #[7], .ok .done⟩,
        ⟨.addCustomInfo ⟨.methodDef, 1⟩ .hoistedLocalScopes #[8], .ok .done⟩],
        recordedBuilder blobs guids) ∧
    blobs.Lists [#[7], #[8]] ∧
    guids.Lists [CustomKind.asyncStepping.guid, CustomKind.hoistedLocalScopes.guid] := by
  obtain ⟨firstBlob, hfirstBlob, honeBlob⟩ :=
    BlobHeap.Builder.lists_empty.exists_add #[7] 1 rfl (by decide) rfl (by decide)
  obtain ⟨blobs, hblob, hblobs⟩ :=
    honeBlob.exists_add #[8] 3 (by rw [honeBlob.data_eq]; rfl) (by decide) rfl (by decide)
  obtain ⟨firstGuid, hfirstGuid, honeGuid⟩ := GuidHeap.Builder.lists_empty.exists_add
    CustomKind.asyncStepping.guid 1 rfl (by decide) (by decide)
  obtain ⟨guids, hguid, hguids⟩ := honeGuid.exists_add CustomKind.hoistedLocalScopes.guid 2
    (by rw [honeGuid.data_eq]; decide) (by decide) (by decide)
  refine ⟨blobs, guids, ?_, hblobs, hguids⟩
  refine perform_cons (step_addLocalScope_new rfl ?_ 1) <|
    perform_cons (step_addLocalScope_new rfl ?_ 1) <|
    perform_cons (step_addLocalScope_new rfl ?_ 1) <| perform_cons rfl <| perform_cons rfl <|
    perform_cons (step_addCustomInfo rfl hfirstGuid hfirstBlob) <|
    perform_cons (step_addCustomInfo rfl hguid hblob) rfl
  · simp [empty]
  · simp [empty]
  · simp [empty]

/-- A scope that is recorded already, with a variable. -/
def recordedAgain : Operation :=
  .addLocalScope (.methodDef 1) 1 0 12 [⟨0, "x", 0⟩]

theorem step_recordedAgain (blobs : BlobHeap.Builder) (guids : GuidHeap.Builder) :
    recordedAgain.step (recordedBuilder blobs guids) =
      (⟨recordedAgain, .ok (.added false)⟩, recordedBuilder blobs guids) :=
  step_addLocalScope_known _ rfl Std.HashSet.contains_insert_self 1 _

/-- Neither a scope that is recorded already nor a state machine of a type leaves a trace: a scope
of the same range is left out again, and one of another range is taken. -/
theorem indistinguishable_of_refused_recorded :
    Indistinguishable (ofOperations (recorded ++ [recordedAgain])) (ofOperations recorded) ∧
    Indistinguishable
      (ofOperations (recorded ++ [.addStateMachine (.typeDef 1) (.methodDef 1)]))
      (ofOperations recorded) ∧
    (perform [recordedAgain, .addLocalScope (.methodDef 1) 1 4 8 []]
      (ofOperations (recorded ++ [recordedAgain]))).1.map (·.outcome) =
        [.ok (.added false), .ok (.added true)] := by
  obtain ⟨blobs, guids, hrecorded, _⟩ := perform_recorded
  have hbuilder : ofOperations recorded = recordedBuilder blobs guids :=
    congrArg (·.2) hrecorded
  have hagain := step_recordedAgain blobs guids
  have hscope : Indistinguishable (ofOperations (recorded ++ [recordedAgain]))
      (ofOperations recorded) := by
    obtain ⟨_, htrace⟩ := indistinguishable_of_refused_iff recorded recordedAgain
      (by rw [hbuilder, hagain]; rfl)
    rw [hbuilder, hagain] at htrace
    exact hbuilder ▸ (htrace rfl).mpr rfl
  refine ⟨hscope, ?_, ?_⟩
  · obtain ⟨_, htrace⟩ := indistinguishable_of_refused_iff recorded
      (.addStateMachine (.typeDef 1) (.methodDef 1)) (by rw [hbuilder]; rfl)
    rw [hbuilder] at htrace
    exact hbuilder ▸ (htrace rfl).mpr rfl
  · have hmethod : (Token.methodDef 1).isTable .methodDef = true := rfl
    have hfree : (recordedBuilder blobs guids).scopeKeys.contains
        ((Token.methodDef 1).row, 4, 8) = false := by
      simp [recordedBuilder]
    have hnew := step_addLocalScope_new hmethod hfree 1
    rw [hscope.outcomes, hbuilder]
    simp only [perform, hagain, hnew, List.map_cons, List.map_nil]

/-- A scope of a new range whose variables are refused takes its range. -/
theorem step_addLocalScope_refused {builder : DebugBuilder} {method : Token}
    (hmethod : method.isTable .methodDef = true) {start length : UInt32}
    (hnew : builder.scopeKeys.contains (method.row, start, length) = false)
    (importScope : UInt32) {slots : List LocalVariable} {error : Error} {heaps : HeapBuilders}
    (hslots : (variableRows slots).run builder.heaps = .error error heaps) :
    (Operation.addLocalScope method importScope start length slots).step builder =
      (⟨.addLocalScope method importScope start length slots, .error error⟩, { builder with
        heaps, scopeKeys := builder.scopeKeys.insert (method.row, start, length) }) := by
  have hrun : (addLocalScope method importScope start length slots).run builder =
      .error error { builder with
        heaps, scopeKeys := builder.scopeKeys.insert (method.row, start, length) } := by
    refine run_bind_eq_error_iff.mpr (.inr ⟨(), builder, ?_, ?_⟩)
    · exact run_checkMethod_eq_ok_iff.mpr ⟨hmethod, rfl⟩
    refine run_get_bind_eq_error_iff.mpr ?_
    rw [if_neg (by simpa using hnew)]
    refine run_bind_eq_error_iff.mpr (.inr ⟨(), _, run_modify_eq_ok_iff.mpr rfl, ?_⟩)
    exact run_bind_eq_error_iff.mpr (.inl (run_onHeaps_eq_error_iff.mpr ⟨heaps, hslots, rfl⟩))
  have hoperation := run_bind_pure_eq_error_iff (f := Answer.added).mpr hrun
  rw [Operation.step, Operation.run, hoperation]

theorem run_variableRows_zeroByte : (variableRows [⟨0, "a\x00b", 0⟩]).run {} =
    .error (.malformed (.nulInString "a\x00b")) {} := by
  have hadd : (StringHeap.Builder.add "a\x00b").run .empty = .error _ _ :=
    StringHeap.Builder.run_add_zeroByte Std.HashMap.getElem?_empty (by decide +kernel)
  refine run_bind_eq_error_iff.mpr (.inl ?_)
  change (HeapBuilders.onStrings _).run _ = _
  simp only [HeapBuilders.onStrings, EStateM.run] at hadd ⊢
  rw [hadd]

/-- After a name with a zero byte was refused, the range of its scope is taken, although there is no
scope of that range. -/
theorem history_zeroByte :
    history [.addLocalScope (.methodDef 1) 1 0 12 [⟨0, "a\x00b", 0⟩],
        .addLocalScope (.methodDef 1) 1 0 12 []] =
      [⟨.addLocalScope (.methodDef 1) 1 0 12 [⟨0, "a\x00b", 0⟩],
          .error (.malformed (.nulInString "a\x00b"))⟩,
        ⟨.addLocalScope (.methodDef 1) 1 0 12 [], .ok (.added false)⟩] ∧
    history [.addLocalScope (.methodDef 1) 1 0 12 []] =
      [⟨.addLocalScope (.methodDef 1) 1 0 12 [], .ok (.added true)⟩] := by
  have hmethod : (Token.methodDef 1).isTable .methodDef = true := rfl
  have hempty : empty.scopeKeys.contains ((Token.methodDef 1).row, 0, 12) = false :=
    Std.HashSet.contains_empty
  have hrefused := step_addLocalScope_refused hmethod hempty 1 run_variableRows_zeroByte
  have hknown := step_addLocalScope_known { empty with
      heaps := {}, scopeKeys := empty.scopeKeys.insert ((Token.methodDef 1).row, 0, 12) }
    hmethod Std.HashSet.contains_insert_self 1 []
  have hnew := step_addLocalScope_new hmethod hempty 1
  simp only [history, perform]
  constructor
  · rw [hrefused, hknown]
  · rw [hnew]

end DebugBuilder

end PortablePdb
