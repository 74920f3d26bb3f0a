import PortablePdb.Proofs.Entries
import PortablePdb.Proofs.Writing

namespace PortablePdb

/-- The elements that come from one element of a list stand behind those that come from the elements
before it. -/
theorem flatMap_window {α β : Type} (f : α → List β) {xs : List α} {i : Nat}
    (hi : i < xs.length) :
    ((xs.flatMap f).drop ((xs.take i).flatMap f).length).take (f xs[i]).length = f xs[i] := by
  have hsplit : xs.flatMap f =
      (xs.take i).flatMap f ++ (f xs[i] ++ (xs.drop (i + 1)).flatMap f) := by
    rw [← List.flatMap_cons, ← List.drop_eq_getElem_cons hi, ← List.flatMap_append,
      List.take_append_drop]
  rw [hsplit, List.drop_left, List.take_left]

/-- A map succeeds on all elements with what it gives for each of them. -/
theorem mapM_eq_ok_of_forall₂ {ε α β : Type} {f : α → Except ε β} {xs : List α} {ys : List β}
    (hall : List.Forall₂ (fun x y => f x = .ok y) xs ys) : xs.mapM f = .ok ys := by
  induction hall with
  | nil => rfl
  | cons hhead _ ih =>
    rw [List.mapM_cons, hhead, ok_bind, ih]
    rfl

/-- A scope is one that was added, with its variables in the order of their slots. -/
structure LocalScope.Shows (scope : LocalScope) (added : DebugBuilder.AddedScope) : Prop where
  method : scope.method = .methodDef added.method
  importScope : scope.importScope = added.importScope
  startOffset : scope.startOffset = added.startOffset
  length : scope.length = added.length
  slots : IsSortedBy (·.index.toUInt32) added.slots scope.slots

namespace DebugBuilder

theorem AddedScope.isSortedBy_sortedSlots (scope : AddedScope) :
    IsSortedBy (·.index.toUInt32) scope.slots scope.sortedSlots :=
  isSortedBy_mergeSort _ _

end DebugBuilder

namespace DebugTables

open DebugBuilder

variable {tables : DebugTables} {scopes : List AddedScope}

/-- A variable is read with the slot, the name and the attributes that it was added with. -/
theorem variableOf_eq {row : LocalVariableRow} {slot : LocalVariable}
    (hrow : row.Stores tables.strings slot) :
    Container.variableOf tables.heaps row = .ok slot := by
  have hname : tables.heaps.strings.stringAt row.name.toNat = .ok slot.name :=
    (hrow.name.grow _).stringAt_eq
  rw [Container.variableOf, hname, hrow.index, hrow.attributes]
  rfl

/-- The number of variables of the scopes before one. -/
def slotsBefore (scopes : List AddedScope) (i : Nat) : Nat :=
  ((scopes.take i).flatMap (·.sortedSlots)).length

theorem slotsBefore_succ {i : Nat} (hi : i < scopes.length) :
    slotsBefore scopes (i + 1) = slotsBefore scopes i + scopes[i].sortedSlots.length := by
  rw [slotsBefore, slotsBefore, List.take_add_one, List.getElem?_eq_getElem hi,
    List.flatMap_append, List.length_append]
  simp

/-- The variables of a scope end where those of the next one start, or at the end. -/
theorem HoldsScopes.stop_eq (hholds : tables.HoldsScopes scopes) {i : Nat}
    (hi : i < tables.localScopes.size) :
    (tables.localScopes[i + 1]?.map (·.variableList.toNat)).getD (tables.localVariables.size + 1) =
      slotsBefore scopes (i + 1) + 1 := by
  by_cases hnext : i + 1 < tables.localScopes.size
  · rw [Array.getElem?_eq_getElem hnext, Option.map_some, Option.getD_some,
      hholds.variableList (i + 1) hnext, slotsBefore]
  · have hlast : i + 1 = scopes.length := by
      have hlength : tables.localScopes.size = scopes.length := hholds.rows.length_eq
      omega
    have hsize : tables.localVariables.size = (scopes.flatMap (·.sortedSlots)).length :=
      hholds.slots.length_eq
    rw [Array.getElem?_eq_none (Nat.not_lt.mp hnext), Option.map_none, Option.getD_none, hsize,
      slotsBefore, hlast, List.take_length]

/-- The rows between two starts are those of the variables of the scope. -/
theorem HoldsScopes.forall₂_own (hholds : tables.HoldsScopes scopes) {i : Nat}
    (hi : i < scopes.length) :
    List.Forall₂ (fun row slot => row.Stores tables.strings slot)
      (tables.localVariables.extract (slotsBefore scopes i) (slotsBefore scopes (i + 1))).toList
      scopes[i].sortedSlots := by
  have hwindow := List.forall₂_take scopes[i].sortedSlots.length
    (List.forall₂_drop (slotsBefore scopes i) hholds.slots)
  rw [slotsBefore, flatMap_window _ hi, ← slotsBefore] at hwindow
  rw [Array.toList_extract, List.extract_eq_take_drop, slotsBefore_succ hi, Nat.add_sub_cancel_left]
  exact hwindow

/-- A scope is read with its own variables. -/
theorem HoldsScopes.scopeOf_eq (hholds : tables.HoldsScopes scopes) {i : Nat}
    (hi : i < tables.localScopes.size) (hscope : i < scopes.length) :
    Container.scopeOf tables.heaps tables.localVariables tables.localScopes[i + 1]?
        tables.localScopes[i] = .ok {
      row := tables.localScopes[i].rid
      method := .methodDef scopes[i].method
      importScope := scopes[i].importScope
      startOffset := scopes[i].startOffset
      length := scopes[i].length
      slots := scopes[i].sortedSlots } := by
  have hrow : tables.localScopes[i].Shows scopes[i] := by
    simpa using hholds.rows.get hi hscope
  have hstart : tables.localScopes[i].variableList.toNat - 1 = slotsBefore scopes i := by
    rw [hholds.variableList i hi, slotsBefore, Nat.add_sub_cancel]
  have hslots := mapM_eq_ok_of_forall₂
    ((hholds.forall₂_own hscope).imp fun row slot hslot => variableOf_eq hslot)
  have hstop : slotsBefore scopes i + (slotsBefore scopes (i + 1) + 1 -
      tables.localScopes[i].variableList.toNat) = slotsBefore scopes (i + 1) := by
    have hsucc := slotsBefore_succ hscope
    rw [hholds.variableList i hi, ← slotsBefore]
    omega
  unfold Container.scopeOf
  simp only [hholds.stop_eq hi, hstart, hstop, hslots, ok_bind, hrow.method, hrow.importScope,
    hrow.startOffset, hrow.length]
  rfl

end DebugTables

namespace TablesStream.Locates

variable {stream : TablesStream} {tables : DebugTables}

theorem localScopes_eq (hlocates : stream.Locates tables) (hnumbered : tables.AllNumbered) :
    stream.rows LocalScopeRow = tables.localScopes :=
  (hlocates.rows_eq (ρ := LocalScopeRow) fun _ _ => trivial).trans
    (hnumbered.localScopes.mapIdx_eq (fun rid row => { row with rid }) fun _ => rfl)

theorem localVariables_eq (hlocates : stream.Locates tables) (hnumbered : tables.AllNumbered) :
    stream.rows LocalVariableRow = tables.localVariables :=
  (hlocates.rows_eq (ρ := LocalVariableRow) fun _ _ => trivial).trans
    (hnumbered.localVariables.mapIdx_eq (fun rid row => { row with rid }) fun _ => rfl)

end TablesStream.Locates

namespace DebugBuilder

/-- The scopes of a container are those of its tables, each at its place and with its variables. -/
theorem getElem_localScopes {tables : DebugTables} {scopes : List AddedScope}
    {container : Container} {stream : TablesStream} (hlocates : stream.Locates tables)
    (hnumbered : tables.AllNumbered) (hholds : tables.HoldsScopes scopes)
    (hread : container.IsReadFrom tables.heaps stream) :
    container.localScopes.size = scopes.length ∧
      ∀ i (hi : i < container.localScopes.size) (hscope : i < scopes.length),
        container.localScopes[i].row.toNat = i + 1 ∧ container.localScopes[i].Shows scopes[i] := by
  have hall := forall₂_of_array_mapM hread.localScopes
  rw [hlocates.localScopes_eq hnumbered, hlocates.localVariables_eq hnumbered] at hall
  have hsize : tables.localScopes.size = container.localScopes.size := by
    simpa using hall.length_eq
  have hlength : tables.localScopes.size = scopes.length := hholds.rows.length_eq
  refine ⟨hsize.symm.trans hlength, fun i hi hscope => ?_⟩
  have hrow : i < tables.localScopes.size := by omega
  have hentry := hall.get (i := i) (by simpa using hrow) hi
  simp only [List.get_eq_getElem, Array.getElem_toList, Array.getElem_zipIdx, Nat.zero_add]
    at hentry
  rw [hholds.scopeOf_eq hrow hscope] at hentry
  rw [← Except.ok.inj hentry]
  exact ⟨hnumbered.localScopes i hrow, rfl, rfl, rfl, rfl, scopes[i].isSortedBy_sortedSlots⟩

/-- Only scopes of methods are added. -/
theorem method_of_added (operations : List Operation) {method : Token}
    {importScope startOffset length : UInt32} {slots : List LocalVariable}
    (hadded : ⟨.addLocalScope method importScope startOffset length slots, .ok (.added true)⟩ ∈
      history operations) : .methodDef method.row = method := by
  revert hadded
  apply history_induction (motive := fun events _ =>
    ⟨.addLocalScope method importScope startOffset length slots, .ok (.added true)⟩ ∈ events →
      .methodDef method.row = method) nofun
  intro events builder operation ih hadded
  obtain hold | hlast := List.mem_append.mp hadded
  · exact ih hold
  · have hstep := List.mem_singleton.mp hlast
    unfold Operation.step at hstep
    cases hrun : operation.run.run builder with
    | error error after =>
      rw [hrun] at hstep
      cases hstep
    | ok answer after =>
      rw [hrun] at hstep
      obtain ⟨rfl, _⟩ := Event.mk.inj hstep
      obtain ⟨isNew, _, hrun, _⟩ := run_bind_eq_ok_iff.mp hrun
      exact Token.methodDef_row (run_addLocalScope hrun).1

/-- Whatever operations are carried out, a container of the finished tables has the scopes that were
added, no others and each once: in the order of their methods and ranges, and each with all of its
variables in the order of their slots, and with no others. -/
theorem localScopes_of_history (operations : List Operation) {count : UInt32}
    {tables : DebugTables} {id : ContentId} {entryPoint : Token} {typeSystemRows : RowCounts}
    {data : Bytes} {container : Container}
    (hfinish : (ofOperations operations).finish count = .ok tables)
    (hencode : tables.encode id entryPoint typeSystemRows = .ok data)
    (hread : Container.ofBytes data = .ok container) :
    (∀ method importScope startOffset length slots,
      ⟨.addLocalScope method importScope startOffset length slots, .ok (.added true)⟩ ∈
        history operations → .methodDef method.row = method) ∧
    ∃ scopes, scopes.Perm (additions (history operations)).scopes ∧
      scopes.Pairwise (fun first second => first.row.Precedes second.row) ∧
      IsNumbered (·.row) container.localScopes ∧
      List.Forall₂ LocalScope.Shows container.localScopes.toList scopes := by
  refine ⟨fun _ _ _ _ _ => method_of_added operations, ?_⟩
  have htabulates := (holds_ofOperations operations).tabulates (finishes_of_finish hfinish)
  obtain ⟨scopes, hperm, hscopes⟩ := htabulates.localScopes
  obtain ⟨stream, hlocates, hentries⟩ := Container.exists_stream_of_ofBytes hencode hread
  obtain ⟨hsize, hshows⟩ := getElem_localScopes hlocates htabulates.numbered hscopes hentries
  refine ⟨scopes, hperm, ?_, fun i hi => (hshows i hi (hsize ▸ hi)).1, ?_⟩
  · apply pairwise_of_forall₂ hscopes.rows.flip htabulates.precedes
    intro scope row other next hrow hnext hprecedes
    rw [LocalScopeRow.Precedes, hrow.method, hrow.startOffset, hrow.length, hnext.method,
      hnext.startOffset, hnext.length] at hprecedes
    exact hprecedes
  · rw [List.forall₂_iff_get]
    refine ⟨hsize, fun i hi hscope => ?_⟩
    simpa using (hshows i hi hscope).2

/-- A scope with a variable, and one without within it. -/
theorem localScopes_of_nestedScopes : ∃ tables data container,
    (ofOperations (nestedScopes 1)).finish 1 = .ok tables ∧
      tables.encode .zero ⟨0⟩ oneMethod = .ok data ∧ Container.ofBytes data = .ok container ∧
      container.localScopes = #[⟨1, .methodDef 1, 1, 0, 10, [⟨0, "", 0⟩]⟩,
        ⟨2, .methodDef 1, 1, 0, 5, []⟩] ∧
      ∃ scopes, scopes.Perm (additions (history (nestedScopes 1))).scopes ∧
        List.Forall₂ LocalScope.Shows container.localScopes.toList scopes := by
  have hfinish : (ofOperations (nestedScopes 1)).finish 1 = .ok (nestedTables #[⟨1, 0, 0, 0⟩]) :=
    finish_nestedScopes rfl (by decide)
  have hread : ((nestedTables #[⟨1, 0, 0, 0⟩]).encode .zero ⟨0⟩ oneMethod >>=
      fun data => (·.localScopes) <$> Container.ofBytes data) =
        .ok #[⟨1, .methodDef 1, 1, 0, 10, [⟨0, "", 0⟩]⟩, ⟨2, .methodDef 1, 1, 0, 5, []⟩] := by
    decide +kernel
  obtain ⟨data, hencode, hread⟩ := bind_eq_ok_iff.mp hread
  rw [map_eq_pure_bind] at hread
  obtain ⟨container, hread, hlocalScopes⟩ := bind_eq_ok_iff.mp hread
  obtain ⟨_, scopes, hperm, _, _, hshows⟩ :=
    localScopes_of_history (nestedScopes 1) hfinish hencode hread
  exact ⟨_, data, container, hfinish, hencode, hread, pure_eq_ok_iff.mp hlocalScopes, scopes, hperm,
    hshows⟩

end DebugBuilder

end PortablePdb
