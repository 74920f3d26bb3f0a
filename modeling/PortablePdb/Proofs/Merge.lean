import PortablePdb.Generation.Merge
import PortablePdb.Proofs.Builder
import PortablePdb.Proofs.Related

namespace PortablePdb

open BlobHeap GuidHeap

namespace FunctionRecords

/-- The rows of the methods that run and start the state machine. -/
def machineRows (records : FunctionRecords) : List (UInt32 × UInt32) :=
  records.machine.toList.map fun machine => (machine.moveNext.row, machine.kickoff.row)

/-- The parent, kind and value of each record of custom debug information. -/
def infos (records : FunctionRecords) : List (CodedIndex × CustomKind × Bytes) :=
  (records.machine.toList.map fun machine =>
    (⟨.methodDef, machine.moveNext.row⟩, .hoistedLocalScopes, machine.hoisted)) ++
  records.stepping.toList.map fun (method, stepping) =>
    (⟨.methodDef, method.row⟩, .asyncStepping, stepping)

theorem length_machineRows_le (records : FunctionRecords) : records.machineRows.length ≤ 1 := by
  cases hmachine : records.machine <;> simp [machineRows, hmachine]

/-- A function has at most one record of each kind. -/
theorem nodup_kinds (records : FunctionRecords) : (records.infos.map (·.2.1)).Nodup := by
  cases hmachine : records.machine <;> cases hstepping : records.stepping <;>
    simp [infos, hmachine, hstepping]

theorem known_of_mem_infos {records : FunctionRecords} {info : CodedIndex × CustomKind × Bytes}
    (hinfo : info ∈ records.infos) : info.2.1 ∈ CustomKind.known := by
  rcases List.mem_append.mp hinfo with hmachine | hstepping
  · obtain ⟨_, _, rfl⟩ := List.mem_map.mp hmachine
    simp [CustomKind.known]
  · obtain ⟨_, _, rfl⟩ := List.mem_map.mp hstepping
    simp [CustomKind.known]

/-- All custom debug information of a function is about methods. -/
theorem table_of_mem_infos {records : FunctionRecords} {info : CodedIndex × CustomKind × Bytes}
    (hinfo : info ∈ records.infos) : info.1.table = .methodDef := by
  rcases List.mem_append.mp hinfo with hmachine | hstepping
  · obtain ⟨_, _, rfl⟩ := List.mem_map.mp hmachine
    rfl
  · obtain ⟨_, _, rfl⟩ := List.mem_map.mp hstepping
    rfl

end FunctionRecords

namespace FileRecords

variable {builder after : DebugBuilder}

/-- The first namespace gets its row before the others: a new one within the row of the namespace
around it, or the row of the global scope if it is a file without imports. -/
theorem run_addNamespaces_cons {scope : NamespaceScope} {scopes : List NamespaceScope}
    {rows result : Array UInt32}
    (hrun : (addNamespaces (scope :: scopes) rows).run builder = .ok result after) :
    (scope.parent = none ∧ scope.imports.isEmpty = true ∧
        (addNamespaces scopes (rows.push DebugBuilder.globalScope)).run builder =
          .ok result after) ∨
      ∃ rid next, (scope.parent = none → scope.imports.isEmpty = false) ∧
        (DebugBuilder.addImportScope
          (scope.parent.elim DebugBuilder.globalScope (rows.getD · DebugBuilder.globalScope))
          scope.imports).run builder = .ok rid next ∧
        (addNamespaces scopes (rows.push rid)).run next = .ok result after := by
  unfold addNamespaces at hrun
  cases hparent : scope.parent with
  | none =>
    simp only [hparent] at hrun
    split at hrun
    · next hempty =>
      obtain ⟨_, _, hpure, hrun⟩ := run_bind_eq_ok_iff.mp hrun
      obtain ⟨rfl, rfl⟩ := run_pure_eq_ok_iff.mp hpure
      exact .inl ⟨rfl, hempty, hrun⟩
    · next himports =>
      obtain ⟨rid, next, hstep, hrun⟩ := run_bind_eq_ok_iff.mp hrun
      exact .inr ⟨rid, next, fun _ => by simpa using himports, hstep, hrun⟩
  | some parent =>
    simp only [hparent] at hrun
    obtain ⟨rid, next, hstep, hrun⟩ := run_bind_eq_ok_iff.mp hrun
    exact .inr ⟨rid, next, nofun, hstep, hrun⟩

/-- The namespaces of a file add scopes of imports only. -/
theorem run_addNamespaces {scopes : List NamespaceScope} {rows result : Array UInt32}
    (hrun : (addNamespaces scopes rows).run builder = .ok result after)
    (hsound : builder.heaps.IsSound) :
    ∃ heaps importScopes, heaps.Extends builder.heaps ∧
      (∀ row ∈ importScopes, row ∈ builder.importScopes ∨
        ∃ names, row.Imports heaps.blobs.data names) ∧
      after = { builder with heaps, importScopes } := by
  induction scopes generalizing builder rows with
  | nil =>
    obtain ⟨_, rfl⟩ := run_pure_eq_ok_iff.mp hrun
    exact ⟨_, _, hsound.extends_self, fun row hrow => .inl hrow, rfl⟩
  | cons scope scopes ih =>
    obtain ⟨_, _, hrest⟩ | ⟨rid, next, _, hstep, hrest⟩ := run_addNamespaces_cons hrun
    · exact ih hrest hsound
    obtain ⟨_, heaps, row, hheaps, _, _, _, himports, rfl⟩ :=
      DebugBuilder.run_addImportScope hstep hsound
    obtain ⟨later, importScopes, hlater, hrows, rfl⟩ := ih hrest hheaps.sound
    refine ⟨later, importScopes, hlater.trans hheaps, ?_, rfl⟩
    intro other hother
    rcases hrows other hother with hold | hnew
    · rcases Array.mem_push.mp hold with hold | rfl
      · exact .inl hold
      · exact .inr ⟨_, hlater.imports himports⟩
    · exact .inr hnew

/-- The scopes of methods are added without variables. -/
theorem run_addMethodScopes {rows : Array UInt32} {scopes : List MethodScope} {done : Unit}
    (hrun : (addMethodScopes rows scopes).run builder = .ok done after) :
    ∃ localScopes scopeKeys, (∀ scope ∈ localScopes, scope ∈ builder.localScopes ∨ scope.2 = []) ∧
      after = { builder with localScopes, scopeKeys } := by
  induction scopes generalizing builder with
  | nil =>
    obtain ⟨_, rfl⟩ := run_pure_eq_ok_iff.mp hrun
    exact ⟨_, _, fun scope hscope => .inl hscope, rfl⟩
  | cons scope scopes ih =>
    obtain ⟨_, next, hstep, hrest⟩ := run_bind_eq_ok_iff.mp hrun
    obtain ⟨isFirst, hstep⟩ := run_discard_eq_ok_iff.mp hstep
    obtain ⟨localScopes, scopeKeys, hscopes, rfl⟩ := ih hrest
    obtain ⟨_, ⟨_, rfl⟩ | ⟨_, rfl⟩⟩ := DebugBuilder.run_addLocalScope_nil hstep
    · exact ⟨localScopes, scopeKeys, hscopes, rfl⟩
    · refine ⟨localScopes, scopeKeys, ?_, rfl⟩
      intro other hother
      rcases hscopes other hother with hold | hnew
      · rcases Array.mem_push.mp hold with hold | rfl
        · exact .inl hold
        · exact .inr rfl
      · exact .inr hnew

private theorem run_addStepping {stepping : Option (Token × Bytes)} {done : Unit}
    (hrun : (addMachine { machine := none, stepping }).run builder = .ok done after)
    (hsound : builder.heaps.IsSound) :
    ∃ heaps added, heaps.Extends builder.heaps ∧
      List.Forall₂ (StoresInfo heaps.blobs.data heaps.guids.data) added
        { machine := none, stepping : FunctionRecords }.infos ∧
      after = { builder with heaps, customInfo := builder.customInfo ++ added.toArray } := by
  cases stepping with
  | none =>
    obtain ⟨_, rfl⟩ := run_pure_eq_ok_iff.mp hrun
    exact ⟨_, [], hsound.extends_self, .nil, by simp⟩
  | some stepping =>
    obtain ⟨_, heaps, record, hheaps, hrecord, rfl⟩ :=
      DebugBuilder.run_addCustomInfo hrun hsound
    exact ⟨heaps, [record], hheaps, .cons hrecord .nil, by simp⟩

/-- A function adds its state machine and its custom debug information. -/
theorem run_addMachine {records : FunctionRecords} {done : Unit}
    (hrun : (addMachine records).run builder = .ok done after)
    (hsound : builder.heaps.IsSound) :
    ∃ heaps added, heaps.Extends builder.heaps ∧
      List.Forall₂ (StoresInfo heaps.blobs.data heaps.guids.data) added records.infos ∧
      after = { builder with
        heaps
        machines := builder.machines ++ records.machineRows.toArray
        customInfo := builder.customInfo ++ added.toArray } := by
  obtain ⟨machine, stepping⟩ := records
  cases machine with
  | none =>
    obtain ⟨heaps, added, hheaps, hadded, rfl⟩ := run_addStepping hrun hsound
    exact ⟨heaps, added, hheaps, hadded, by simp [FunctionRecords.machineRows]⟩
  | some machine =>
    simp only [addMachine] at hrun
    obtain ⟨_, _, hmachine, hrun⟩ := run_bind_eq_ok_iff.mp hrun
    obtain rfl := DebugBuilder.run_addStateMachine hmachine
    obtain ⟨_, _, hhoisted, hrun⟩ := run_bind_eq_ok_iff.mp hrun
    obtain ⟨_, heaps, record, hheaps, hrecord, rfl⟩ :=
      DebugBuilder.run_addCustomInfo hhoisted hsound
    obtain ⟨later, added, hlater, hadded, rfl⟩ := run_addStepping hrun hheaps.sound
    refine ⟨later, record :: added, hlater.trans hheaps,
      .cons (hlater.storesInfo hrecord) hadded, ?_⟩
    simp [FunctionRecords.machineRows]

/-- What the submission of a function does: nothing at all if its method was submitted before, or
else it records the method with its points, its state machine and its custom debug information. -/
inductive Submits (builder : DebugBuilder) (document : UInt32) (entry : MethodRecords) :
    DebugBuilder → Prop
  | known (hknown : builder.hasMethod entry.method = true) :
      Submits builder document entry builder
  | first {heaps : HeapBuilders} {row : UInt32 × UInt32}
      {added : List (CodedIndex × UInt32 × UInt32)}
      (hnew : builder.hasMethod entry.method = false) (hheaps : heaps.Extends builder.heaps)
      (hpoints : ∀ blob, entry.points = some blob →
        row.1 = document ∧ HasBlob heaps.blobs.data row.2 blob)
      (hempty : entry.points = none → row = (0, 0))
      (hadded : List.Forall₂ (StoresInfo heaps.blobs.data heaps.guids.data) added
        entry.records.infos) :
      Submits builder document entry { builder with
        heaps
        methods := builder.methods.insert entry.method.row row
        machines := builder.machines ++ entry.records.machineRows.toArray
        customInfo := builder.customInfo ++ added.toArray }

/-- The diagnostic about a function whose method was submitted before. -/
def duplicate (path : String) (entry : MethodRecords) : Diagnostic :=
  report path .warning .duplicateMethod
    "Duplicate sequence point definition, the first one is kept" entry.method

/-- The first function of a file is submitted before the others. -/
theorem run_addMethods_cons {path : String} {document : UInt32} {entry : MethodRecords}
    {entries : List MethodRecords} {diagnostics : List Diagnostic}
    (hrun : (addMethods path document (entry :: entries)).run builder = .ok diagnostics after)
    (hsound : builder.heaps.IsSound) :
    ∃ middle rest, entry.method.isTable .methodDef = true ∧
      Submits builder document entry middle ∧
      (addMethods path document entries).run middle = .ok rest after ∧
      diagnostics =
        if builder.hasMethod entry.method then duplicate path entry :: rest else rest := by
  obtain ⟨isFirst, next, hadd, hnext⟩ := run_bind_eq_ok_iff.mp hrun
  obtain ⟨hmethod, hisFirst, hknown, hfirst⟩ := DebugBuilder.run_addMethod hadd hsound
  cases isFirst with
  | true =>
    obtain ⟨heaps, row, hheaps, hpoints, hempty, rfl⟩ := hfirst rfl
    obtain ⟨_, middle, hmachine, hrest⟩ := run_bind_eq_ok_iff.mp hnext
    obtain ⟨later, added, hlater, hadded, rfl⟩ := run_addMachine hmachine hheaps.sound
    have hnew : builder.hasMethod entry.method = false := by simpa using hisFirst.symm
    refine ⟨_, diagnostics, hmethod, .first hnew (hlater.trans hheaps) ?_ hempty hadded, hrest, ?_⟩
    · intro blob hblob
      exact ⟨(hpoints blob hblob).1, hlater.hasBlob (hpoints blob hblob).2⟩
    · rw [hnew]
      rfl
  | false =>
    obtain rfl := hknown rfl
    have hhas : next.hasMethod entry.method = true := by simpa using hisFirst.symm
    obtain ⟨rest, _, hrest, hdone⟩ := run_bind_eq_ok_iff.mp hnext
    obtain ⟨rfl, rfl⟩ := run_pure_eq_ok_iff.mp hdone
    exact ⟨_, rest, hmethod, .known hhas, hrest, by rw [hhas]; rfl⟩

/-- Functions add neither documents nor scopes, and custom debug information about methods only. -/
theorem run_addMethods {path : String} {document : UInt32} {entries : List MethodRecords}
    {diagnostics : List Diagnostic}
    (hrun : (addMethods path document entries).run builder = .ok diagnostics after)
    (hsound : builder.heaps.IsSound) :
    ∃ (heaps : HeapBuilders) (methods : Std.HashMap UInt32 (UInt32 × UInt32))
        (machines : Array (UInt32 × UInt32)) (added : List (CodedIndex × UInt32 × UInt32)),
      heaps.Extends builder.heaps ∧ (∀ record ∈ added, record.1.table = .methodDef) ∧
      after = { builder with
        heaps, methods, machines, customInfo := builder.customInfo ++ added.toArray } := by
  induction entries generalizing builder diagnostics with
  | nil =>
    obtain ⟨_, rfl⟩ := run_pure_eq_ok_iff.mp hrun
    exact ⟨_, builder.methods, builder.machines, [], hsound.extends_self, nofun, by simp⟩
  | cons entry entries ih =>
    obtain ⟨middle, rest, _, hsubmits, hrest, _⟩ := run_addMethods_cons hrun hsound
    cases hsubmits with
    | known _ => exact ih hrest hsound
    | @first _ _ added _ hheaps _ _ hadded =>
      obtain ⟨heaps, methods, machines, more, hlater, hmore, rfl⟩ := ih hrest hheaps.sound
      refine ⟨heaps, methods, machines, added ++ more, hlater.trans hheaps, ?_, by simp⟩
      intro record hrecord
      rcases List.mem_append.mp hrecord with hold | hnew
      · obtain ⟨info, hinfo, hstores⟩ := exists_of_forall₂ hadded hold
        rw [hstores.parent, FunctionRecords.table_of_mem_infos hinfo]
      · exact hmore record hnew

/-- A file with the scope of one method, which has no points, adds the scope and the method behind
its document and its namespaces. -/
theorem run_merge_of_method {file : FileRecords} {path : String} {scope : MethodScope}
    {document : UInt32} {rows : Array UInt32} {documented : DebugBuilder}
    (hdocument : (DebugBuilder.addDocument file.document).run builder = .ok document documented)
    (hnamespaces : (addNamespaces file.scopes.namespaces.toList #[]).run documented =
      .ok rows after)
    (hscopes : file.scopes.methods.toList = [scope])
    (hmethods : file.methods = [⟨scope.method, none, {}⟩])
    (hmethod : scope.method.isTable .methodDef = true) (hkeys : after.scopeKeys = ∅)
    (hnone : after.methods = ∅) :
    (file.merge path).run builder = .ok [] { after with
      scopeKeys := after.scopeKeys.insert (scope.method.row, 0, scope.length)
      localScopes := after.localScopes.push (⟨0, scope.method.row,
        rows.getD scope.namespaceScope DebugBuilder.globalScope, 0, 0, 0, scope.length⟩, [])
      methods := after.methods.insert scope.method.row (0, 0) } := by
  refine run_bind_eq_ok_iff.mpr ⟨document, documented, hdocument, ?_⟩
  refine run_bind_eq_ok_iff.mpr ⟨rows, after, hnamespaces, ?_⟩
  rw [hscopes, hmethods]
  refine run_bind_eq_ok_iff.mpr ⟨(), _, run_bind_eq_ok_iff.mpr ⟨(), _, run_discard_eq_ok_iff.mpr
    ⟨true, DebugBuilder.run_addLocalScope_new hmethod (by simp [hkeys]) _⟩, rfl⟩, ?_⟩
  refine run_bind_eq_ok_iff.mpr ⟨true, _, DebugBuilder.run_addMethod_pointless hmethod
    (by simp [DebugBuilder.hasMethod, hnone]) document, ?_⟩
  exact run_bind_eq_ok_iff.mpr ⟨(), _, rfl, rfl⟩

end FileRecords

/-- The first file is merged before the others, if it has any records. -/
theorem FileOutcome.run_mergeAll_cons {builder after : DebugBuilder} {outcome : FileOutcome}
    {outcomes : List FileOutcome} {diagnostics : List Diagnostic}
    (hrun : (mergeAll (outcome :: outcomes)).run builder = .ok diagnostics after) :
    ∃ merged middle rest,
      (outcome.records.elim (pure []) (·.merge outcome.path)).run builder = .ok merged middle ∧
      (mergeAll outcomes).run middle = .ok rest after ∧
      diagnostics = outcome.diagnostics ++ merged ++ rest := by
  unfold mergeAll at hrun
  cases hrecords : outcome.records with
  | none =>
    simp only [hrecords] at hrun
    obtain ⟨merged, middle, hnone, hrun⟩ := run_bind_eq_ok_iff.mp hrun
    obtain ⟨rest, _, hrest, hrun⟩ := run_bind_eq_ok_iff.mp hrun
    obtain ⟨rfl, rfl⟩ := run_pure_eq_ok_iff.mp hrun
    exact ⟨merged, middle, rest, hnone, hrest, rfl⟩
  | some file =>
    simp only [hrecords] at hrun
    obtain ⟨merged, middle, hmerge, hrun⟩ := run_bind_eq_ok_iff.mp hrun
    obtain ⟨rest, _, hrest, hrun⟩ := run_bind_eq_ok_iff.mp hrun
    obtain ⟨rfl, rfl⟩ := run_pure_eq_ok_iff.mp hrun
    exact ⟨merged, middle, rest, hmerge, hrest, rfl⟩

/-- What holds of the files before and is kept by merging one more file holds of all files. -/
theorem FileOutcome.mergeAll_induction {motive : List FileOutcome → DebugBuilder → Prop}
    {outcomes before : List FileOutcome} {builder after : DebugBuilder}
    {diagnostics : List Diagnostic}
    (hrun : (mergeAll outcomes).run builder = .ok diagnostics after)
    (hbuilder : motive before builder)
    (hskip : ∀ before outcome builder, outcome.records = none → motive before builder →
      motive (before ++ [outcome]) builder)
    (hmerge : ∀ before outcome file builder after diagnostics, outcome ∈ outcomes →
      outcome.records = some file →
      (file.merge outcome.path).run builder = .ok diagnostics after → motive before builder →
      motive (before ++ [outcome]) after) :
    motive (before ++ outcomes) after := by
  induction outcomes generalizing before builder diagnostics with
  | nil =>
    obtain ⟨_, rfl⟩ := run_pure_eq_ok_iff.mp hrun
    rwa [List.append_nil]
  | cons outcome outcomes ih =>
    obtain ⟨_, middle, _, hfirst, hrest, _⟩ := run_mergeAll_cons hrun
    have hlater (before : List FileOutcome) (other : FileOutcome) (file : FileRecords)
        (builder after : DebugBuilder) (diagnostics : List Diagnostic)
        (hother : other ∈ outcomes) :=
      hmerge before other file builder after diagnostics (List.mem_cons_of_mem _ hother)
    rw [List.append_cons]
    cases hrecords : outcome.records with
    | none =>
      rw [hrecords] at hfirst
      obtain ⟨_, rfl⟩ := run_pure_eq_ok_iff.mp hfirst
      exact ih hrest (hskip before outcome builder hrecords hbuilder) hlater
    | some file =>
      rw [hrecords] at hfirst
      exact ih hrest
        (hmerge before outcome file _ _ _ List.mem_cons_self hrecords hfirst hbuilder) hlater

end PortablePdb
