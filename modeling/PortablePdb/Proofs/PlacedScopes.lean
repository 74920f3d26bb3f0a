import PortablePdb.Proofs.Collecting
import PortablePdb.Proofs.LexicalImports

namespace PortablePdb

/-- Whether a namespace gets a row of imports: only a file that imports nothing gets none, and
shares the first row. -/
def NamespaceScope.needsRow (scope : NamespaceScope) : Bool :=
  scope.parent.isSome || !scope.imports.isEmpty

/-- The rows of imports of some namespaces behind a number of rows. -/
def NamespaceScope.rowsBehind (count : Nat) : List NamespaceScope → List Nat
  | [] => []
  | scope :: scopes =>
    if scope.needsRow then (count + 1) :: rowsBehind (count + 1) scopes
    else 1 :: rowsBehind count scopes

/-- The scope of a method with the row of the imports around it. -/
structure PlacedScope where
  scope : MethodScope
  importScope : Nat

namespace PlacedScope

/-- The row of the method, the start and the length of a scope. -/
def key (placed : PlacedScope) : UInt32 × UInt32 × UInt32 :=
  (placed.scope.method.row, 0, placed.scope.length)

/-- The scopes of the methods of a file behind a number of rows of imports. -/
def ofFile (count : Nat) (file : FileScopes) : List PlacedScope :=
  file.methods.toList.map fun scope =>
    ⟨scope, (NamespaceScope.rowsBehind count file.namespaces.toList).getD scope.namespaceScope 1⟩

/-- The number of rows of imports after some files, behind a number of rows. -/
def rowCount (count : Nat) (files : List FileScopes) : Nat :=
  files.foldl (fun count file =>
    count + file.namespaces.toList.countP NamespaceScope.needsRow) count

/-- The scopes of the methods of files behind a number of rows of imports, in the order of the files
and of the scopes in them. -/
def ofFiles (count : Nat) : List FileScopes → List PlacedScope
  | [] => []
  | file :: files => ofFile count file ++ ofFiles (rowCount count [file]) files

theorem map_scope_ofFiles (count : Nat) (files : List FileScopes) :
    (ofFiles count files).map (·.scope) = files.flatMap (·.methods.toList) := by
  induction files generalizing count with
  | nil => rfl
  | cons file files ih => simp [ofFiles, ofFile, ih, Function.comp_def]

theorem rowCount_concat (count : Nat) (files : List FileScopes) (file : FileScopes) :
    rowCount count (files ++ [file]) =
      rowCount count files + file.namespaces.toList.countP NamespaceScope.needsRow := by
  simp [rowCount]

theorem ofFiles_concat (count : Nat) (files : List FileScopes) (file : FileScopes) :
    ofFiles count (files ++ [file]) =
      ofFiles count files ++ ofFile (rowCount count files) file := by
  induction files generalizing count with
  | nil => simp [ofFiles, rowCount]
  | cons first files ih => simp [ofFiles, ih, rowCount]

end PlacedScope

/-- The scopes of the files that have records. -/
def FileOutcome.mergedScopes (outcomes : List FileOutcome) : List FileScopes :=
  outcomes.filterMap fun outcome => outcome.records.map (·.scopes)

namespace FileRecords

variable {builder after : DebugBuilder}

/-- The namespaces of a file get the next rows of imports. -/
theorem rows_of_addNamespaces {scopes : List NamespaceScope} {rows result : Array UInt32}
    (hrun : (addNamespaces scopes rows).run builder = .ok result after)
    (hsound : builder.heaps.IsSound) :
    after.importScopes.size = builder.importScopes.size + scopes.countP NamespaceScope.needsRow ∧
      result.toList.map (·.toNat) = rows.toList.map (·.toNat) ++
        NamespaceScope.rowsBehind builder.importScopes.size scopes := by
  induction scopes generalizing builder rows with
  | nil =>
    obtain ⟨rfl, rfl⟩ := run_pure_eq_ok_iff.mp hrun
    simp [NamespaceScope.rowsBehind]
  | cons scope scopes ih =>
    obtain ⟨hparent, hempty, hrest⟩ | ⟨rid, next, himports, hstep, hrest⟩ :=
      run_addNamespaces_cons hrun
    · have hneeds : scope.needsRow = false := by
        simp [NamespaceScope.needsRow, hparent, hempty]
      obtain ⟨hsize, hrows⟩ := ih hrest hsound
      refine ⟨?_, ?_⟩
      · rw [hsize, List.countP_cons_of_neg (by simp [hneeds])]
      · simp [hrows, NamespaceScope.rowsBehind, hneeds, DebugBuilder.globalScope]
    · have hneeds : scope.needsRow = true := by
        cases hparent : scope.parent with
        | none => simp [NamespaceScope.needsRow, himports hparent]
        | some parent => simp [NamespaceScope.needsRow, hparent]
      obtain ⟨_, heaps, row, hheaps, hnext, _, _, _, rfl⟩ :=
        DebugBuilder.run_addImportScope hstep hsound
      obtain ⟨hsize, hrows⟩ := ih hrest hheaps.sound
      rw [Array.size_push] at hsize hrows
      refine ⟨?_, ?_⟩
      · rw [hsize, List.countP_cons_of_pos hneeds]
        omega
      · simp [hrows, NamespaceScope.rowsBehind, hneeds, (DebugBuilder.nextRow_eq_ok hnext).1]

end FileRecords

namespace DebugBuilder

variable {builder after : DebugBuilder} {records : List PlacedScope}

/-- The first scope of each method and range is kept with its row of imports, and no other one. -/
structure PlacesScopes (builder : DebugBuilder) (records : List PlacedScope) : Prop where
  methods : ∀ record ∈ records, record.scope.method.isTable .methodDef = true
  keys : ∀ key, builder.scopeKeys.contains key = records.any (·.key == key)
  scopes : ∀ key, (builder.localScopes.toList.filter (·.1.key == key)).map
      (·.1.importScope.toNat) = (records.find? (·.key == key)).toList.map (·.importScope)

theorem placesScopes_empty : PlacesScopes empty [] where
  methods := nofun
  keys _ := Std.HashSet.contains_empty
  scopes _ := rfl

namespace PlacesScopes

/-- What adds no scopes of methods keeps those that are there. -/
theorem grow (hplaces : builder.PlacesScopes records) (hkeys : after.scopeKeys = builder.scopeKeys)
    (hscopes : after.localScopes = builder.localScopes) : after.PlacesScopes records where
  methods := hplaces.methods
  keys := hkeys ▸ hplaces.keys
  scopes := hscopes ▸ hplaces.scopes

/-- The scope of a method is kept if it is the first one of its range. -/
theorem addMethodScope (hplaces : builder.PlacesScopes records) {record : PlacedScope}
    {row : UInt32} {isFirst : Bool}
    (hrun : (addLocalScope record.scope.method row 0 record.scope.length []).run builder =
      .ok isFirst after) (hrow : row.toNat = record.importScope) :
    after.PlacesScopes (records ++ [record]) := by
  obtain ⟨hmethod, hadd⟩ := run_addLocalScope_nil hrun
  have hmethods : ∀ other ∈ records ++ [record],
      other.scope.method.isTable .methodDef = true := by
    intro other hother
    rcases List.mem_append.mp hother with hold | hlast
    · exact hplaces.methods other hold
    · rwa [List.mem_singleton.mp hlast]
  have hkey : builder.scopeKeys.contains (record.scope.method.row, 0, record.scope.length) =
      records.any (·.key == record.key) :=
    hplaces.keys record.key
  rw [hkey] at hadd
  obtain ⟨hknown, rfl⟩ | ⟨hnew, rfl⟩ := hadd
  · refine ⟨hmethods, ?_, ?_⟩
    · simpa only [any_concat_of_any hknown] using hplaces.keys
    · simpa only [find?_concat_of_any hknown] using hplaces.scopes
  · refine ⟨hmethods, ?_, ?_⟩
    · intro key
      rw [Std.HashSet.contains_insert, hplaces.keys, List.any_append, Bool.or_comm]
      simp [PlacedScope.key]
    · have hscopes := hplaces.scopes
      simp only [← List.forall₂_eq_eq_eq, List.forall₂_map_left_iff, List.forall₂_map_right_iff]
        at hscopes ⊢
      intro key
      rw [Array.toList_push]
      exact forall₂_filter_concat hscopes hnew rfl hrow key

/-- The scopes of the methods of a file are added in their order. -/
theorem addMethodScopes (hplaces : builder.PlacesScopes records) {rows : Array UInt32}
    {places : List Nat} {scopes : List MethodScope} {done : Unit}
    (hrun : (FileRecords.addMethodScopes rows scopes).run builder = .ok done after)
    (hrows : rows.toList.map (·.toNat) = places) :
    after.PlacesScopes (records ++ scopes.map fun scope =>
      ⟨scope, places.getD scope.namespaceScope 1⟩) := by
  induction scopes generalizing builder records with
  | nil =>
    obtain ⟨_, rfl⟩ := run_pure_eq_ok_iff.mp hrun
    simpa using hplaces
  | cons scope scopes ih =>
    obtain ⟨_, middle, hstep, hrest⟩ := run_bind_eq_ok_iff.mp hrun
    obtain ⟨isFirst, hstep⟩ := run_discard_eq_ok_iff.mp hstep
    have hrow : (rows.getD scope.namespaceScope globalScope).toNat =
        places.getD scope.namespaceScope 1 := by
      rw [← hrows, Array.getD_eq_getD_getElem?, List.getD_eq_getElem?_getD, List.getElem?_map,
        Array.getElem?_toList]
      cases rows[scope.namespaceScope]? with
      | none => rfl
      | some row => rfl
    have hmiddle : middle.PlacesScopes
        (records ++ [⟨scope, places.getD scope.namespaceScope 1⟩]) :=
      hplaces.addMethodScope hstep hrow
    rw [List.map_cons, List.append_cons]
    exact ih hmiddle hrest

end PlacesScopes

/-- The rows of imports of merged files are counted, and the first scopes of their methods are kept
with their rows. -/
structure PlacesFiles (builder : DebugBuilder) (files : List FileScopes) : Prop where
  heaps : builder.heaps.IsSound
  importScopes : builder.importScopes.size = PlacedScope.rowCount 1 files
  places : builder.PlacesScopes (PlacedScope.ofFiles 1 files)

theorem placesFiles_empty : PlacesFiles empty [] where
  heaps := HeapBuilders.isSound_empty
  importScopes := rfl
  places := placesScopes_empty

namespace PlacesFiles

variable {files : List FileScopes}

theorem merge (hplaces : builder.PlacesFiles files) {path : String} {file : FileRecords}
    {diagnostics : List Diagnostic}
    (hrun : (FileRecords.merge path file).run builder = .ok diagnostics after) :
    after.PlacesFiles (files ++ [file.scopes]) := by
  obtain ⟨document, first, hdocument, hrest⟩ := run_bind_eq_ok_iff.mp hrun
  obtain ⟨rows, second, hnamespaces, hrest⟩ := run_bind_eq_ok_iff.mp hrest
  obtain ⟨_, third, hscopes, hmethods⟩ := run_bind_eq_ok_iff.mp hrest
  obtain ⟨heaps, row, record, hheaps, _, _, _, _, rfl⟩ := run_addDocument hdocument hplaces.heaps
  obtain ⟨hsize, hrows⟩ := FileRecords.rows_of_addNamespaces hnamespaces hheaps.sound
  obtain ⟨later, importScopes, hlater, _, hsecond⟩ :=
    FileRecords.run_addNamespaces hnamespaces hheaps.sound
  have hplacesSecond : second.PlacesScopes (PlacedScope.ofFiles 1 files) :=
    hplaces.places.grow (by rw [hsecond]) (by rw [hsecond])
  have hthird := hplacesSecond.addMethodScopes hscopes hrows
  subst hsecond
  obtain ⟨localScopes, scopeKeys, _, rfl⟩ := FileRecords.run_addMethodScopes hscopes
  obtain ⟨last, methods, machines, added, hlast, _, rfl⟩ :=
    FileRecords.run_addMethods hmethods hlater.sound
  rw [show _ = PlacedScope.rowCount 1 files from hplaces.importScopes] at hsize hthird
  exact {
    heaps := hlast.sound
    importScopes := by rw [hsize, PlacedScope.rowCount_concat]
    places := by
      rw [PlacedScope.ofFiles_concat]
      exact hthird.grow rfl rfl }

/-- Merging all files keeps the first scopes of the methods of all of them. -/
theorem mergeAll {outcomes : List FileOutcome} {diagnostics : List Diagnostic}
    (hrun : (FileOutcome.mergeAll outcomes).run empty = .ok diagnostics after) :
    after.PlacesFiles (FileOutcome.mergedScopes outcomes) := by
  have hempty : empty.PlacesFiles (FileOutcome.mergedScopes []) := placesFiles_empty
  refine FileOutcome.mergeAll_induction (motive := fun before builder =>
    builder.PlacesFiles (FileOutcome.mergedScopes before)) hrun hempty ?_ ?_
  · intro before outcome builder hnone hbefore
    simpa [FileOutcome.mergedScopes, hnone] using hbefore
  · intro before outcome file builder after diagnostics _ hsome hmerge hbefore
    simpa [FileOutcome.mergedScopes, hsome] using hbefore.merge hmerge

end PlacesFiles

/-- What is recorded for a scope comes from the scope of a method. -/
theorem PlacesScopes.exists_record (hplaces : builder.PlacesScopes records)
    {entry : LocalScopeRow × List LocalVariableRow} (hentry : entry ∈ builder.localScopes.toList) :
    ∃ record ∈ records, record.key = entry.1.key := by
  have hmem : entry.1.importScope.toNat ∈
      (builder.localScopes.toList.filter (·.1.key == entry.1.key)).map (·.1.importScope.toNat) :=
    List.mem_map_of_mem (f := fun entry : LocalScopeRow × List LocalVariableRow =>
      entry.1.importScope.toNat) (List.mem_filter.mpr ⟨hentry, beq_self_eq_true _⟩)
  rw [hplaces.scopes] at hmem
  obtain ⟨record, hrecord, _⟩ := List.mem_map.mp hmem
  have hfound := Option.mem_toList.mp hrecord
  exact ⟨record, List.mem_of_find?_eq_some hfound, by simpa using List.find?_some hfound⟩

/-- The finished table has one row for a method whose scopes have one length, from the start of the
method and with the row of imports of the first scope. -/
theorem PlacesScopes.scopes_of_method (hplaces : builder.PlacesScopes records) {count : UInt32}
    {tables : DebugTables} (hfinishes : builder.Finishes count tables) {method : Token}
    (hmethod : method.isTable .methodDef = true) {length : UInt32}
    (hlength : ∀ record ∈ records, record.scope.method = method → record.scope.length = length) :
    (tables.localScopes.toList.filter (·.method == method.row)).map
        (fun row => (row.importScope.toNat, row.startOffset, row.length)) =
      (records.find? (·.scope.method == method)).toList.map
        fun record => (record.importScope, 0, length) := by
  -- Records and scopes are of the method just if they have its range.
  have hrecords : ∀ record ∈ records,
      (record.scope.method == method) = (record.key == (method.row, 0, length)) := by
    intro record hrecord
    rw [Bool.eq_iff_iff, beq_iff_eq, beq_iff_eq]
    constructor
    · intro hsame
      rw [PlacedScope.key, hsame, hlength record hrecord hsame]
    · intro hkey
      have hrow : record.scope.method.row = method.row := congrArg (·.1) hkey
      rw [← Token.methodDef_row (hplaces.methods record hrecord), hrow,
        Token.methodDef_row hmethod]
  have hentries : ∀ entry ∈ builder.localScopes.toList,
      (entry.1.method == method.row) = (entry.1.key == (method.row, 0, length)) := by
    intro entry hentry
    obtain ⟨record, hrecord, hkey⟩ := hplaces.exists_record hentry
    have hrow : record.scope.method.row = entry.1.method := congrArg (·.1) hkey
    rw [← hkey, ← hrecords record hrecord, ← hrow,
      Token.beq_eq_beq_row (hplaces.methods record hrecord) hmethod]
  have hsorted : (builder.localScopes.toList.mergeSort
      fun a b => DebugTables.scopeLE a.1 b.1).filter (·.1.method == method.row) =
        builder.localScopes.toList.filter (·.1.key == (method.row, 0, length)) := by
    rw [← filter_sortScopes]
    exact List.filter_congr fun entry hentry =>
      hentries entry ((List.mergeSort_perm _ _).mem_iff.mp hentry)
  calc (tables.localScopes.toList.filter (·.method == method.row)).map
        (fun row => (row.importScope.toNat, row.startOffset, row.length))
    _ = (builder.localScopes.toList.filter (·.1.key == (method.row, 0, length))).map
        (fun entry => (entry.1.importScope.toNat, entry.1.startOffset, entry.1.length)) := by
      rw [← hsorted, ← List.forall₂_eq_eq_eq, List.forall₂_map_left_iff,
        List.forall₂_map_right_iff]
      refine (List.rel_filter ?_ hfinishes.lays.numbersScopes.records).imp ?_
      · intro row entry hrow
        rw [hrow]
      · intro row entry hrow
        rw [hrow]
    _ = ((builder.localScopes.toList.filter (·.1.key == (method.row, 0, length))).map
        (·.1.importScope.toNat)).map fun importScope => (importScope, 0, length) := by
      rw [List.map_map]
      refine List.map_congr_left fun entry hentry => ?_
      have hkey : entry.1.key = (method.row, 0, length) := by
        simpa using (List.mem_filter.mp hentry).2
      have hstart : entry.1.startOffset = 0 := congrArg (·.2.1) hkey
      have hend : entry.1.length = length := congrArg (·.2.2) hkey
      rw [hstart, hend, Function.comp_apply]
    _ = (records.find? (·.scope.method == method)).toList.map
        fun record => (record.importScope, 0, length) := by
      rw [hplaces.scopes, List.map_map, ← List.head?_filter, ← List.head?_filter,
        List.filter_congr hrecords]
      rfl

end DebugBuilder

namespace Generation

variable {module : Module} {decompiler : Decompiler} {options : GeneratorOptions}
  {compress : Bytes → Bytes} {newPool : PoolCreation} {generated : GeneratedContainer}

/-- The scopes of the source files that are merged, in their order. -/
def mergedScopesOf (module : Module) (decompiler : Decompiler) (options : GeneratorOptions)
    (compress : Bytes → Bytes) : List FileScopes :=
  FileOutcome.mergedScopes (outcomesOf module decompiler options compress)

/-- Whether a method is that of a function in the scopes of a merged file, or runs its state
machine. -/
def Reaches (module : Module) (decompiler : Decompiler) (options : GeneratorOptions)
    (compress : Bytes → Bytes) (method : Token) : Prop :=
  ∃ source ∈ SourceFile.ofModule module decompiler options.nestedDirectories,
    ∃ file records, decompiler.decompile source.types = .ok file ∧
      (FileOutcome.ofFile module decompiler options.banner source compress).records =
        some records ∧
      ∃ id ∈ records.scopes.functions, ∃ function, file.function? id = some function ∧
        method ∈ function.method :: function.moveNext.toList

theorem mem_mergedScopesOf {scopes : FileScopes} :
    scopes ∈ mergedScopesOf module decompiler options compress ↔
      ∃ source ∈ SourceFile.ofModule module decompiler options.nestedDirectories,
        ∃ records, (FileOutcome.ofFile module decompiler options.banner source compress).records =
          some records ∧ records.scopes = scopes := by
  simp only [mergedScopesOf, FileOutcome.mergedScopes, outcomesOf, List.mem_filterMap,
    List.mem_map, Option.map_eq_some_iff]
  constructor
  · rintro ⟨_, ⟨source, hsource, rfl⟩, records, hrecords, rfl⟩
    exact ⟨source, hsource, records, hrecords, rfl⟩
  · rintro ⟨source, hsource, records, hrecords, rfl⟩
    exact ⟨_, ⟨source, hsource, rfl⟩, records, hrecords, rfl⟩

/-- The scopes of merged files were collected from what the files were decompiled to. -/
theorem exists_ofFile_of_merged {scopes : FileScopes}
    (hscopes : scopes ∈ mergedScopesOf module decompiler options compress) :
    ∃ file, FileScopes.ofFile file module = .ok scopes := by
  obtain ⟨source, _, records, hrecords, rfl⟩ := mem_mergedScopesOf.mp hscopes
  obtain ⟨file, _, hof⟩ := FileRecords.exists_areOf hrecords
  exact ⟨file, hof.scopes⟩

/-- The scopes of the methods of all merged files, in the order of the files and of the scopes in
them, with their rows of imports. -/
def placedScopesOf (module : Module) (decompiler : Decompiler) (options : GeneratorOptions)
    (compress : Bytes → Bytes) : List PlacedScope :=
  PlacedScope.ofFiles 1 (mergedScopesOf module decompiler options compress)

theorem exists_placed_iff {scope : MethodScope} :
    (∃ placed ∈ placedScopesOf module decompiler options compress, placed.scope = scope) ↔
      ∃ scopes ∈ mergedScopesOf module decompiler options compress, scope ∈ scopes.methods := by
  rw [← List.mem_map, placedScopesOf, PlacedScope.map_scope_ofFiles, List.mem_flatMap]
  simp only [Array.mem_toList_iff]

/-- Placed scopes are as long as the code of their methods. -/
theorem length_of_placed {placed : PlacedScope} {code : MethodCode}
    (hplaced : placed ∈ placedScopesOf module decompiler options compress)
    (hcode : (module.method? placed.scope.method).bind (·.code) = some code) :
    placed.scope.length = code.size := by
  obtain ⟨scopes, hscopes, hscope⟩ := exists_placed_iff.mp ⟨placed, hplaced, rfl⟩
  obtain ⟨file, hfile⟩ := exists_ofFile_of_merged hscopes
  obtain ⟨other, hother, hlength⟩ := FileScopes.exists_code_of_ofFile hfile hscope
  rw [hcode] at hother
  cases hother
  exact hlength

/-- A method has a scope in one of the merged files just if it has code and is reached. -/
theorem exists_placed_of_method_iff {method : Token} :
    (∃ placed ∈ placedScopesOf module decompiler options compress,
      placed.scope.method = method) ↔
      (∃ code, (module.method? method).bind (·.code) = some code) ∧
        Reaches module decompiler options compress method := by
  constructor
  · rintro ⟨placed, hplaced, hmethod⟩
    obtain ⟨_, hscopes, hscope⟩ := exists_placed_iff.mp ⟨placed, hplaced, rfl⟩
    obtain ⟨source, hsource, records, hrecords, rfl⟩ := mem_mergedScopesOf.mp hscopes
    obtain ⟨file, hfile, hof⟩ := FileRecords.exists_areOf hrecords
    obtain ⟨hcode, hfunction⟩ :=
      (FileScopes.exists_scope_iff hof.scopes).mp ⟨placed.scope, hscope, hmethod⟩
    exact ⟨hcode, source, hsource, file, records, hfile, hrecords, hfunction⟩
  · rintro ⟨hcode, source, hsource, file, records, hfile, hrecords, hfunction⟩
    obtain ⟨decompiled, hdecompiled, hof⟩ := FileRecords.exists_areOf hrecords
    rw [hfile] at hdecompiled
    cases hdecompiled
    obtain ⟨scope, hscope, hmethod⟩ :=
      (FileScopes.exists_scope_iff hof.scopes).mpr ⟨hcode, hfunction⟩
    obtain ⟨placed, hplaced, rfl⟩ := exists_placed_iff.mpr ⟨records.scopes,
      mem_mergedScopesOf.mpr ⟨source, hsource, records, hrecords, rfl⟩, hscope⟩
    exact ⟨placed, hplaced, hmethod⟩

/-- The table of scopes has one row for each method that has code and is reached in a merged file:
it spans the whole code, and its imports are those of the first scope of the method in the order of
the files. There are no rows for other methods. -/
theorem generate_scopes_methods_once
    (hgenerated : generate module decompiler options compress newPool = .ok generated) :
    ∃ tables contentId, contentIdOf module options = .ok contentId ∧
      encodeWithId module tables contentId =
        .ok (generated.data, generated.report.contentId, generated.report.contentIdSource) ∧
      ∀ method, method.isTable .methodDef = true →
        (∀ code, (module.method? method).bind (·.code) = some code →
          Reaches module decompiler options compress method →
          ∃ row first, tables.localScopes.toList.filter (·.method == method.row) = [row] ∧
            (placedScopesOf module decompiler options compress).find?
              (·.scope.method == method) = some first ∧
            row.importScope.toNat = first.importScope ∧ row.startOffset = 0 ∧
            row.length = code.size) ∧
        (((module.method? method).bind (·.code) = none ∨
          ¬ Reaches module decompiler options compress method) →
          tables.localScopes.toList.filter (·.method == method.row) = []) := by
  obtain ⟨builder, tables, diagnostics, hgenerates⟩ := exists_generates hgenerated
  obtain ⟨contentId, hcontentId, hencode⟩ := hgenerates.encode_eq
  have hplaces : builder.PlacesScopes (placedScopesOf module decompiler options compress) :=
    (DebugBuilder.PlacesFiles.mergeAll hgenerates.merge_eq).places
  refine ⟨tables, contentId, hcontentId, hencode, fun method hmethod => ⟨?_, ?_⟩⟩
  · intro code hcode hreaches
    obtain ⟨placed, hplaced, hsame⟩ := exists_placed_of_method_iff.mpr ⟨⟨code, hcode⟩, hreaches⟩
    have hhas : ((placedScopesOf module decompiler options compress).find?
        (·.scope.method == method)).isSome = true :=
      List.find?_isSome.mpr ⟨placed, hplaced, by simpa using hsame⟩
    obtain ⟨first, hfirst⟩ := Option.isSome_iff_exists.mp hhas
    have hlength : ∀ record ∈ placedScopesOf module decompiler options compress,
        record.scope.method = method → record.scope.length = code.size := by
      rintro record hrecord rfl
      exact length_of_placed hrecord hcode
    have hrows := hplaces.scopes_of_method hgenerates.finishes hmethod hlength
    rw [hfirst] at hrows
    obtain ⟨row, hrow, hfields⟩ := List.map_eq_singleton_iff.mp hrows
    obtain ⟨himports, hrange⟩ := Prod.mk.inj hfields
    obtain ⟨hstart, hend⟩ := Prod.mk.inj hrange
    exact ⟨row, first, hrow, hfirst, himports, hstart, hend⟩
  · intro hmissing
    have hnone : ∀ record ∈ placedScopesOf module decompiler options compress,
        record.scope.method ≠ method := by
      intro record hrecord hsame
      obtain ⟨⟨code, hcode⟩, hreaches⟩ := exists_placed_of_method_iff.mp ⟨record, hrecord, hsame⟩
      rcases hmissing with hnocode | hunreached
      · rw [hcode] at hnocode
        cases hnocode
      · exact hunreached hreaches
    have hlength : ∀ record ∈ placedScopesOf module decompiler options compress,
        record.scope.method = method → record.scope.length = 0 :=
      fun record hrecord hsame => absurd hsame (hnone record hrecord)
    have hrows := hplaces.scopes_of_method hgenerates.finishes hmethod hlength
    rw [List.find?_eq_none.mpr (by simpa using hnone)] at hrows
    exact List.map_eq_nil_iff.mp hrows

theorem generate_scopes_methods_once_sample : ∃ generated tables contentId row,
    generate sampleModule sampleDecompiler sampleOptions = .ok generated ∧
      encodeWithId sampleModule tables contentId =
        .ok (generated.data, generated.report.contentId, generated.report.contentIdSource) ∧
      Reaches sampleModule sampleDecompiler sampleOptions Deflate.deflate (.methodDef 1) ∧
      tables.localScopes.toList.filter (·.method == 1) = [row] ∧ row.importScope.toNat = 1 ∧
      row.startOffset = 0 ∧ row.length = 2 := by
  obtain ⟨generated, hgenerated, _⟩ := exists_generate_sample
  obtain ⟨tables, contentId, _, hencode, hscopes⟩ := generate_scopes_methods_once hgenerated
  have hplaced : placedScopesOf sampleModule sampleDecompiler sampleOptions Deflate.deflate =
      [⟨⟨.methodDef 1, 0, 2⟩, 1⟩, ⟨⟨.methodDef 1, 0, 2⟩, 1⟩] := by
    rw [placedScopesOf, mergedScopesOf, outcomesOf_sample]
    rfl
  obtain ⟨_, hreaches⟩ := exists_placed_of_method_iff.mp
    ⟨⟨⟨.methodDef 1, 0, 2⟩, 1⟩, hplaced ▸ List.mem_cons_self, rfl⟩
  obtain ⟨row, first, hrow, hfirst, himports, hstart, hend⟩ :=
    (hscopes (.methodDef 1) rfl).1 ⟨2, 0⟩ rfl hreaches
  rw [hplaced] at hfirst
  cases hfirst
  exact ⟨generated, tables, contentId, row, hgenerated, hencode, hreaches, hrow, himports, hstart,
    hend⟩

end Generation

end PortablePdb
