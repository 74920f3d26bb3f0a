import PortablePdb.Proofs.Additions
import PortablePdb.Proofs.Namespaces
import PortablePdb.Proofs.Submissions

namespace PortablePdb

open BlobHeap FileScopes

/-- The way from a row up to the global scope of imports, with the names that each row on it
imports. -/
inductive ImportChain (rows : Array ImportScopeRow) (blobs : Bytes) : UInt32 → List NameSet → Prop
  | global : ImportChain rows blobs DebugBuilder.globalScope []
  | inner {row : ImportScopeRow} {names : NameSet} {outer : List NameSet}
      (hrow : rows[row.rid.toNat - 1]? = some row) (hinner : DebugBuilder.globalScope < row.rid)
      (hnames : row.Imports blobs names.toList) (houter : ImportChain rows blobs row.parent outer) :
      ImportChain rows blobs row.rid (names :: outer)

namespace ImportChain

variable {rows : Array ImportScopeRow} {blobs : Bytes} {rid : UInt32} {sets : List NameSet}

/-- A way stays in place when rows are added. -/
theorem append (hchain : ImportChain rows blobs rid sets) (more : Array ImportScopeRow) :
    ImportChain (rows ++ more) blobs rid sets := by
  induction hchain with
  | global => exact .global
  | inner hrow hinner hnames _ ih =>
    have hlt := (Array.getElem?_eq_some_iff.mp hrow).1
    exact .inner (by rwa [Array.getElem?_append_left hlt]) hinner hnames ih

theorem grow {heaps after : HeapBuilders} (hchain : ImportChain rows heaps.blobs.data rid sets)
    (hafter : after.Extends heaps) : ImportChain rows after.blobs.data rid sets := by
  induction hchain with
  | global => exact .global
  | inner hrow hinner hnames _ ih => exact .inner hrow hinner (hafter.imports hnames) ih

/-- A way starts at a row that exists. -/
theorem le_size (hchain : ImportChain rows blobs rid sets) (hrows : IsImportTree rows) :
    rid ≠ 0 ∧ rid.toNat ≤ rows.size := by
  cases hchain with
  | global => exact ⟨by decide, (Array.getElem?_eq_some_iff.mp hrows.global).1⟩
  | @inner row _ _ hrow hinner _ _ =>
    have hlt := (Array.getElem?_eq_some_iff.mp hrow).1
    have hpos : 1 < row.rid.toNat := UInt32.lt_iff_toNat_lt.mp hinner
    refine ⟨?_, by omega⟩
    intro hzero
    rw [hzero] at hpos
    cases hpos

end ImportChain

namespace FileRecords

variable {builder after : DebugBuilder}

/-- Rows lead through the imports of the namespaces that they were added for. -/
def Chains (namespaces : Array NamespaceScope) (rows : Array UInt32)
    (importScopes : Array ImportScopeRow) (blobs : Bytes) : Prop :=
  ∀ slot row, rows[slot]? = some row →
    ∃ sets, Encloses namespaces slot sets ∧ ImportChain importScopes blobs row sets

theorem Chains.push {namespaces : Array NamespaceScope} {rows : Array UInt32}
    {importScopes : Array ImportScopeRow} {blobs : Bytes} {row : UInt32} {sets : List NameSet}
    (hrows : Chains namespaces rows importScopes blobs) (hsets : Encloses namespaces rows.size sets)
    (hchain : ImportChain importScopes blobs row sets) :
    Chains namespaces (rows.push row) importScopes blobs := by
  intro slot other hother
  rw [Array.getElem?_push] at hother
  split at hother
  · next hlast =>
    cases hother
    exact ⟨sets, hlast ▸ hsets, hchain⟩
  · exact hrows slot other hother

/-- One more scope of imports is the start of a way through it. -/
theorem chains_of_addImportScope {namespaces : Array NamespaceScope} {rows : Array UInt32}
    {parent rid : UInt32} {names : NameSet} {outer : List NameSet}
    (hrun : (DebugBuilder.addImportScope parent names).run builder = .ok rid after)
    (hsound : builder.heaps.IsSound) (htree : IsImportTree builder.importScopes)
    (hrows : Chains namespaces rows builder.importScopes builder.heaps.blobs.data)
    (hsets : Encloses namespaces rows.size (names :: outer))
    (houter : ImportChain builder.importScopes builder.heaps.blobs.data parent outer) :
    ∃ heaps row, heaps.Extends builder.heaps ∧ IsImportTree (builder.importScopes.push row) ∧
      after = { builder with heaps, importScopes := builder.importScopes.push row } ∧
      Chains namespaces (rows.push rid) (builder.importScopes.push row) heaps.blobs.data := by
  obtain ⟨hparent, heaps, row, hheaps, hnext, rfl, rfl, hnames, rfl⟩ :=
    DebugBuilder.run_addImportScope hrun hsound
  have hsize : 0 < builder.importScopes.size := (Array.getElem?_eq_some_iff.mp htree.global).1
  obtain ⟨hcount, _⟩ := DebugBuilder.nextRow_eq_ok hnext
  have hgrown {other : UInt32} {sets : List NameSet}
      (hchain : ImportChain builder.importScopes builder.heaps.blobs.data other sets) :
      ImportChain (builder.importScopes.push row) heaps.blobs.data other sets := by
    rw [Array.push_eq_append]
    exact (hchain.grow hheaps).append #[row]
  refine ⟨heaps, row, hheaps, htree.push hnext hparent, rfl, ?_⟩
  apply Chains.push _ hsets
  · apply ImportChain.inner _ _ hnames (hgrown houter)
    · rw [hcount, Nat.add_sub_cancel, Array.getElem?_push_size]
    · rw [UInt32.lt_iff_toNat_lt, hcount]
      exact Nat.lt_add_of_pos_left hsize
  · intro slot other hother
    obtain ⟨sets, hencloses, hchain⟩ := hrows slot other hother
    exact ⟨sets, hencloses, hgrown hchain⟩

/-- The next namespace that imports something does so within the way from the row around it. -/
theorem Chains.exists_outer {file : FileScopes} {rows : Array UInt32}
    {importScopes : Array ImportScopeRow} {blobs : Bytes} {scope : NamespaceScope}
    (hrows : Chains file.namespaces rows importScopes blobs) (hfile : file.IsNested)
    (hscope : file.namespaces[rows.size]? = some scope)
    (himports : scope.parent = none → scope.imports.isEmpty = false) :
    ∃ outer, Encloses file.namespaces rows.size (scope.imports :: outer) ∧
      ImportChain importScopes blobs
        (scope.parent.elim DebugBuilder.globalScope (rows.getD · DebugBuilder.globalScope))
        outer := by
  obtain ⟨parent, imports⟩ := scope
  cases parent with
  | none =>
    have hzero := hfile.eq_zero_of_parent hscope rfl
    rw [hzero] at hscope ⊢
    exact ⟨[], .file hscope (himports rfl), .global⟩
  | some parent =>
    have hlt := hfile.parent_lt hscope rfl
    obtain ⟨outer, houter, hchain⟩ := hrows parent _ (Array.getElem?_eq_getElem hlt)
    refine ⟨outer, .inner hscope houter, ?_⟩
    simpa [Array.getD, hlt] using hchain

/-- The namespaces of a file get rows that lead through the same imports. -/
theorem chains_of_addNamespaces {file : FileScopes} {scopes : List NamespaceScope}
    {rows result : Array UInt32} (hrun : (addNamespaces scopes rows).run builder = .ok result after)
    (hsound : builder.heaps.IsSound) (htree : IsImportTree builder.importScopes)
    (hfile : file.IsNested) (hscopes : file.namespaces.toList.drop rows.size = scopes)
    (hrows : Chains file.namespaces rows builder.importScopes builder.heaps.blobs.data) :
    ∃ heaps more, heaps.Extends builder.heaps ∧ IsImportTree (builder.importScopes ++ more) ∧
      after = { builder with heaps, importScopes := builder.importScopes ++ more } ∧
      file.namespaces.size ≤ result.size ∧
      Chains file.namespaces result (builder.importScopes ++ more) heaps.blobs.data := by
  induction scopes generalizing builder rows with
  | nil =>
    obtain ⟨rfl, rfl⟩ := run_pure_eq_ok_iff.mp hrun
    refine ⟨_, #[], hsound.extends_self, by simpa using htree, by simp, ?_, by simpa using hrows⟩
    simpa using hscopes
  | cons scope scopes ih =>
    have hlater : file.namespaces.toList.drop (rows.size + 1) = scopes := by
      rw [← List.tail_drop, hscopes, List.tail_cons]
    have hscope : file.namespaces[rows.size]? = some scope := by
      rw [← Array.getElem?_toList, ← List.head?_drop, hscopes, List.head?_cons]
    obtain ⟨hparent, hempty, hrest⟩ | ⟨rid, next, himports, hstep, hrest⟩ :=
      run_addNamespaces_cons hrun
    · have hzero := hfile.eq_zero_of_parent hscope hparent
      obtain ⟨_, imports⟩ := scope
      cases hparent
      rw [hzero] at hscope
      refine ih hrest hsound htree (by rwa [Array.size_push]) ?_
      exact hrows.push (hzero ▸ .emptyFile hscope hempty) .global
    · obtain ⟨outer, hsets, houter⟩ := hrows.exists_outer hfile hscope himports
      obtain ⟨heaps, row, hheaps, hpushed, rfl, hchains⟩ :=
        chains_of_addImportScope hstep hsound htree hrows hsets houter
      obtain ⟨later, more, hmore, htree, rfl, hsize, hresult⟩ :=
        ih hrest hheaps.sound hpushed (by rwa [Array.size_push]) hchains
      rw [Array.push_eq_append, Array.append_assoc] at htree hresult
      refine ⟨later, #[row] ++ more, hmore.trans hheaps, htree, ?_, hsize, hresult⟩
      rw [Array.push_eq_append, Array.append_assoc]

end FileRecords

/-- The scope of a method, with the namespaces of its file. -/
structure ScopeRecord where
  namespaces : Array NamespaceScope
  scope : MethodScope

namespace ScopeRecord

/-- The scopes of a file, in the order in which its syntax opens them. -/
def ofOutcome (outcome : FileOutcome) : List ScopeRecord :=
  (outcome.records.elim [] (·.scopes.methods.toList)).map fun scope =>
    ⟨outcome.records.elim #[] (·.scopes.namespaces), scope⟩

/-- The row of the method, the start and the length of a scope. -/
def key (record : ScopeRecord) : UInt32 × UInt32 × UInt32 :=
  (record.scope.method.row, 0, record.scope.length)

end ScopeRecord

/-- The row of the method, the start and the length of a scope. -/
def LocalScopeRow.key (row : LocalScopeRow) : UInt32 × UInt32 × UInt32 :=
  (row.method, row.startOffset, row.length)

/-- A row is that of the scope of a method, and leads through the imports of its namespaces. -/
def LocalScopeRow.StoresRecord (row : LocalScopeRow) (importScopes : Array ImportScopeRow)
    (blobs : Bytes) (record : ScopeRecord) : Prop :=
  row.key = record.key ∧
    ∃ sets, Encloses record.namespaces record.scope.namespaceScope sets ∧
      ImportChain importScopes blobs row.importScope sets

namespace DebugBuilder

variable {builder after : DebugBuilder} {records : List ScopeRecord}

/-- The first scope of each method and range is kept, and no other one. -/
structure KeepsScopes (builder : DebugBuilder) (records : List ScopeRecord) : Prop where
  heaps : builder.heaps.IsSound
  importScopes : IsImportTree builder.importScopes
  methods : ∀ record ∈ records, record.scope.method.isTable .methodDef = true
  keys : ∀ key, builder.scopeKeys.contains key = records.any (·.key == key)
  scopes : ∀ key, List.Forall₂ (fun (entry : LocalScopeRow × List LocalVariableRow) record =>
      entry.1.StoresRecord builder.importScopes builder.heaps.blobs.data record)
    (builder.localScopes.toList.filter (·.1.key == key)) (records.find? (·.key == key)).toList

theorem keepsScopes_empty : KeepsScopes empty [] where
  heaps := HeapBuilders.isSound_empty
  importScopes := isImportTree_empty
  methods := nofun
  keys _ := Std.HashSet.contains_empty
  scopes _ := .nil

/-- What is recorded for a scope comes from the scope of a method. -/
theorem KeepsScopes.exists_record (hkeeps : builder.KeepsScopes records)
    {entry : LocalScopeRow × List LocalVariableRow} (hentry : entry ∈ builder.localScopes) :
    ∃ record ∈ records,
      entry.1.StoresRecord builder.importScopes builder.heaps.blobs.data record := by
  have hmem : entry ∈ builder.localScopes.toList.filter (·.1.key == entry.1.key) :=
    List.mem_filter.mpr ⟨Array.mem_toList_iff.mpr hentry, beq_self_eq_true _⟩
  obtain ⟨record, hrecord, hstores⟩ := exists_of_forall₂ (hkeeps.scopes entry.1.key) hmem
  exact ⟨record, List.mem_of_find?_eq_some (Option.mem_toList.mp hrecord), hstores⟩

/-- What adds no scopes of methods keeps those that are there. -/
theorem KeepsScopes.grow (hkeeps : builder.KeepsScopes records) {heaps : HeapBuilders}
    {more : Array ImportScopeRow} (hheaps : heaps.Extends builder.heaps)
    (htree : IsImportTree (builder.importScopes ++ more)) (hnextHeaps : after.heaps = heaps)
    (hnextScopes : after.importScopes = builder.importScopes ++ more)
    (hkeys : after.scopeKeys = builder.scopeKeys)
    (hscopes : after.localScopes = builder.localScopes) : after.KeepsScopes records where
  heaps := hnextHeaps ▸ hheaps.sound
  importScopes := hnextScopes ▸ htree
  methods := hkeeps.methods
  keys := hkeys ▸ hkeeps.keys
  scopes key := by
    rw [hscopes, hnextHeaps, hnextScopes]
    refine (hkeeps.scopes key).imp fun entry record hentry => ?_
    obtain ⟨hkey, sets, hencloses, hchain⟩ := hentry
    exact ⟨hkey, sets, hencloses, (hchain.grow hheaps).append more⟩

/-- The scope of a method is kept if it is the first one of its range. -/
theorem KeepsScopes.addMethodScope (hkeeps : builder.KeepsScopes records) {rows : Array UInt32}
    {record : ScopeRecord} {isFirst : Bool}
    (hrun : (addLocalScope record.scope.method (rows.getD record.scope.namespaceScope globalScope) 0
      record.scope.length []).run builder = .ok isFirst after)
    (hrows : FileRecords.Chains record.namespaces rows builder.importScopes
      builder.heaps.blobs.data)
    (hscope : record.scope.namespaceScope < rows.size) :
    after.KeepsScopes (records ++ [record]) := by
  obtain ⟨hmethod, hadd⟩ := run_addLocalScope_nil hrun
  have hmethods : ∀ other ∈ records ++ [record],
      other.scope.method.isTable .methodDef = true := by
    intro other hother
    rcases List.mem_append.mp hother with hold | hlast
    · exact hkeeps.methods other hold
    · rwa [List.mem_singleton.mp hlast]
  have hkey : builder.scopeKeys.contains (record.scope.method.row, 0, record.scope.length) =
      records.any (·.key == record.key) :=
    hkeeps.keys record.key
  rw [hkey] at hadd
  obtain ⟨hknown, rfl⟩ | ⟨hnew, rfl⟩ := hadd
  · exact { hkeeps with
      methods := hmethods
      keys := by simpa only [any_concat_of_any hknown] using hkeeps.keys
      scopes := by simpa only [find?_concat_of_any hknown] using hkeeps.scopes }
  · exact { hkeeps with
      methods := hmethods
      keys := by
        intro key
        rw [Std.HashSet.contains_insert, hkeeps.keys, List.any_append, Bool.or_comm]
        simp [ScopeRecord.key]
      scopes := by
        intro key
        rw [Array.toList_push]
        obtain ⟨sets, hencloses, hchain⟩ := hrows _ _ (Array.getElem?_eq_getElem hscope)
        refine forall₂_filter_concat hkeeps.scopes hnew rfl ⟨rfl, sets, hencloses, ?_⟩ key
        simpa [Array.getD, hscope] using hchain }

/-- The scopes of the methods of a file are added in their order. -/
theorem KeepsScopes.addMethodScopes (hkeeps : builder.KeepsScopes records) {rows : Array UInt32}
    {namespaces : Array NamespaceScope} {scopes : List MethodScope} {done : Unit}
    (hrun : (FileRecords.addMethodScopes rows scopes).run builder = .ok done after)
    (hrows : FileRecords.Chains namespaces rows builder.importScopes builder.heaps.blobs.data)
    (hscopes : ∀ scope ∈ scopes, scope.namespaceScope < rows.size) :
    after.KeepsScopes (records ++ scopes.map (⟨namespaces, ·⟩)) := by
  induction scopes generalizing builder records with
  | nil =>
    obtain ⟨_, rfl⟩ := run_pure_eq_ok_iff.mp hrun
    simpa using hkeeps
  | cons scope scopes ih =>
    obtain ⟨_, middle, hstep, hrest⟩ := run_bind_eq_ok_iff.mp hrun
    obtain ⟨isFirst, hstep⟩ := run_discard_eq_ok_iff.mp hstep
    have hmiddle : middle.KeepsScopes (records ++ [⟨namespaces, scope⟩]) :=
      hkeeps.addMethodScope hstep hrows (hscopes scope List.mem_cons_self)
    obtain ⟨hsameScopes, hsameHeaps⟩ : middle.importScopes = builder.importScopes ∧
        middle.heaps = builder.heaps := by
      obtain ⟨_, ⟨_, rfl⟩ | ⟨_, rfl⟩⟩ := run_addLocalScope_nil hstep <;> exact ⟨rfl, rfl⟩
    rw [List.map_cons, List.append_cons]
    refine ih hmiddle hrest (by rwa [hsameScopes, hsameHeaps]) ?_
    exact fun other hother => hscopes other (List.mem_cons_of_mem scope hother)

/-- Merging a file keeps the first scopes of its methods. -/
theorem KeepsScopes.merge (hkeeps : builder.KeepsScopes records) {path : String}
    {file : FileRecords} {diagnostics : List Diagnostic}
    (hrun : (FileRecords.merge path file).run builder = .ok diagnostics after)
    (hfile : file.scopes.IsNested) :
    after.KeepsScopes
      (records ++ file.scopes.methods.toList.map (⟨file.scopes.namespaces, ·⟩)) := by
  obtain ⟨document, first, hdocument, hrest⟩ := run_bind_eq_ok_iff.mp hrun
  obtain ⟨rows, second, hnamespaces, hrest⟩ := run_bind_eq_ok_iff.mp hrest
  obtain ⟨_, third, hscopes, hmethods⟩ := run_bind_eq_ok_iff.mp hrest
  obtain ⟨heaps, row, record, hheaps, _, _, _, _, rfl⟩ := run_addDocument hdocument hkeeps.heaps
  obtain ⟨later, more, hlater, htree, rfl, hsize, hchains⟩ := FileRecords.chains_of_addNamespaces
    hnamespaces hheaps.sound hkeeps.importScopes hfile rfl nofun
  have hsecond : KeepsScopes { builder with
      heaps := later
      importScopes := builder.importScopes ++ more
      documents := builder.documents.push row
      documentRows := builder.documentRows.insert file.document.path document
      customInfo := builder.customInfo.push record } records :=
    hkeeps.grow (hlater.trans hheaps) htree rfl rfl rfl rfl
  have hthird := hsecond.addMethodScopes hscopes hchains fun scope hscope =>
    Nat.lt_of_lt_of_le (hfile.methods scope (Array.mem_toList_iff.mp hscope)) hsize
  obtain ⟨last, methods, machines, added, hlast, _, rfl⟩ :=
    FileRecords.run_addMethods hmethods hthird.heaps
  have hnone : IsImportTree (third.importScopes ++ #[]) := by
    simpa using hthird.importScopes
  exact hthird.grow hlast hnone rfl (by simp) rfl rfl

/-- Merging all files keeps the first scopes of the methods of all of them. -/
theorem KeepsScopes.mergeAll (hkeeps : builder.KeepsScopes records) {outcomes : List FileOutcome}
    {diagnostics : List Diagnostic}
    (hrun : (FileOutcome.mergeAll outcomes).run builder = .ok diagnostics after)
    (hfiles : ∀ outcome ∈ outcomes, ∀ file, outcome.records = some file →
      file.scopes.IsNested) :
    after.KeepsScopes (records ++ outcomes.flatMap ScopeRecord.ofOutcome) := by
  have hempty : builder.KeepsScopes (records ++ [].flatMap ScopeRecord.ofOutcome) := by
    simpa using hkeeps
  refine FileOutcome.mergeAll_induction (motive := fun before builder =>
    builder.KeepsScopes (records ++ before.flatMap ScopeRecord.ofOutcome)) hrun hempty ?_ ?_
  · intro before outcome builder hnone hbefore
    have hskipped : ScopeRecord.ofOutcome outcome = [] := by
      simp [ScopeRecord.ofOutcome, hnone]
    simpa [hskipped] using hbefore
  · intro before outcome file builder after diagnostics houtcome hsome hmerge hbefore
    have hmerged : ScopeRecord.ofOutcome outcome =
        file.scopes.methods.toList.map (⟨file.scopes.namespaces, ·⟩) := by
      simp [ScopeRecord.ofOutcome, hsome]
    have hafter := hbefore.merge hmerge (hfiles outcome houtcome file hsome)
    simpa [hmerged] using hafter

end DebugBuilder

end PortablePdb
