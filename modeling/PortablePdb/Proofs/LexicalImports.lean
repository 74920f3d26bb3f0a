import PortablePdb.Proofs.Generated
import PortablePdb.Proofs.Resilience

namespace PortablePdb

open FileScopes

/-- A place is within the same sets of names whichever way they are found. -/
theorem FileScopes.Encloses.unique {namespaces : Array NamespaceScope} {slot : Nat}
    {first second : List NameSet} (hfirst : Encloses namespaces slot first)
    (hsecond : Encloses namespaces slot second) : first = second := by
  induction hfirst generalizing second with
  | emptyFile hfile hempty =>
    cases hsecond with
    | emptyFile _ _ => rfl
    | file hother himports => simp_all
    | inner hscope _ => simp_all
  | file hfile himports =>
    cases hsecond with
    | emptyFile hother hempty => simp_all
    | file hother _ => simp_all
    | inner hscope _ => simp_all
  | inner hscope _ ih =>
    cases hsecond with
    | emptyFile hfile _ => simp_all
    | file hfile _ => simp_all
    | inner hother houter =>
      rw [hscope] at hother
      cases hother
      rw [ih houter]

namespace Container

/-- The imports of a scope and of those that its parents lead to, from the inside out. The way ends
at the first scope, which has no parent and imports nothing. -/
inductive ImportsFrom (container : Container) : UInt32 → List (List Import) → Prop
  | global (hscope : container.importScopes[0]? = some ⟨1, 0, []⟩) : ImportsFrom container 1 []
  | inner (scope : ImportScope) {outer : List (List Import)} (hinner : 1 < scope.row)
      (hscope : container.importScopes[scope.row.toNat - 1]? = some scope)
      (houter : ImportsFrom container scope.parent outer) :
      ImportsFrom container scope.row (scope.imports :: outer)

variable {container : Container} {tables : DebugTables}

/-- A way through the rows of tables is one through the scopes of their container. -/
theorem importsFrom_of_importChain (hlists : container.Lists tables)
    (hempty : tables.heaps.blobs.data.HasAt 0 #[0]) (htree : IsImportTree tables.importScopes)
    {row : UInt32} {sets : List NameSet}
    (hchain : ImportChain tables.importScopes tables.heaps.blobs.data row sets) :
    container.ImportsFrom row (sets.map fun names => names.toList.map .importNamespace) := by
  induction hchain with
  | global =>
    obtain ⟨scope, hscope, hglobal⟩ := exists_getElem?_of_forall₂ hlists.importScopes htree.global
    cases hglobal
    exact .global hscope
  | inner hrow hinner hnames _ ih =>
    obtain ⟨scope, hscope, hsame⟩ := exists_getElem?_of_forall₂ hlists.importScopes hrow
    rw [importScopeOf_eq hempty hnames] at hsame
    cases hsame
    exact .inner ⟨_, _, _⟩ hinner hscope ih

end Container

namespace DebugBuilder

variable {builder : DebugBuilder} {records : List ScopeRecord} {count : UInt32}
  {tables : DebugTables} {container : Container}

/-- Finished scopes still lead through the imports of the namespaces around their methods. -/
theorem KeepsScopes.importsFrom (hkeeps : builder.KeepsScopes records)
    (hfinishes : builder.Finishes count tables) (hlists : container.Lists tables)
    {row : LocalScopeRow} {record : ScopeRecord}
    (hrow : row.StoresRecord builder.importScopes builder.heaps.blobs.data record) :
    ∃ sets, Encloses record.namespaces record.scope.namespaceScope sets ∧
      container.ImportsFrom row.importScope
        (sets.map fun names => names.toList.map .importNamespace) := by
  obtain ⟨_, sets, hencloses, hchain⟩ := hrow
  have hpadded := hkeeps.heaps.extends_padded
  have hblobs := (hfinishes.heaps_eq hkeeps.heaps).1
  refine ⟨sets, hencloses, Container.importsFrom_of_importChain hlists ?_ ?_ ?_⟩
  · rw [hblobs]
    exact hpadded.sound.blobs.empty_at
  · rw [hfinishes.importScopes]
    exact hkeeps.importScopes
  · rw [hfinishes.importScopes, hblobs]
    exact hchain.grow hpadded

/-- Sorting leaves the scopes of one range in the order that they had. -/
theorem filter_sortScopes (scopes : List (LocalScopeRow × List LocalVariableRow))
    (key : UInt32 × UInt32 × UInt32) :
    (scopes.mergeSort fun a b => DebugTables.scopeLE a.1 b.1).filter (·.1.key == key) =
      scopes.filter (·.1.key == key) := by
  apply filter_mergeSort
  · exact fun a b c => DebugTables.scopeLE_trans a.1 b.1 c.1
  · exact fun a b => DebugTables.scopeLE_total a.1 b.1
  · intro a _ b _ hsameA hsameB
    have hsame : a.1.key = b.1.key := (eq_of_beq hsameA).trans (eq_of_beq hsameB).symm
    obtain ⟨hmethod, hrange⟩ := Prod.mk.inj hsame
    obtain ⟨hstart, hlength⟩ := Prod.mk.inj hrange
    rw [DebugTables.scopeLE_iff, hmethod, hstart, hlength]
    exact .inr ⟨rfl, .inr ⟨rfl, UInt32.le_rfl⟩⟩

/-- The container has one scope for the first record of a range. -/
theorem KeepsScopes.exists_scope (hkeeps : builder.KeepsScopes records)
    (hfinishes : builder.Finishes count tables) (hlists : container.Lists tables)
    {record : ScopeRecord} (hfirst : records.find? (·.key == record.key) = some record) :
    ∃ (scope : LocalScope) (row : LocalScopeRow),
      (container.scopesOf record.scope.method).filter (fun scope =>
        scope.startOffset == 0 && scope.length == record.scope.length) = [scope] ∧
      scope.IsOf row ∧
      row.StoresRecord builder.importScopes builder.heaps.blobs.data record := by
  have hmethod := hkeeps.methods record (List.mem_of_find?_eq_some hfirst)
  have hrecorded : ∀ entry ∈ builder.localScopes.toList.mergeSort fun a b =>
      DebugTables.scopeLE a.1 b.1, ∃ other ∈ records,
        entry.1.StoresRecord builder.importScopes builder.heaps.blobs.data other := by
    intro entry hentry
    apply hkeeps.exists_record
    exact Array.mem_toList_iff.mp ((List.mergeSort_perm _ _).mem_iff.mp hentry)
  have hscopes := (List.forall₂_and_left _ _).mpr ⟨hrecorded, hfinishes.forall₂_scopes hlists⟩
  -- A scope has the method and the range of the record just if its row has their key.
  have hsame (entry : LocalScopeRow × List LocalVariableRow) (scope : LocalScope)
      (hboth : (∃ other ∈ records, entry.1.StoresRecord builder.importScopes
        builder.heaps.blobs.data other) ∧ scope.IsOf entry.1) :
      entry.1.key == record.key ↔ ((scope.startOffset == 0 &&
        scope.length == record.scope.length) && scope.method == record.scope.method) := by
    obtain ⟨⟨other, hother, hkey, _⟩, hscope⟩ := hboth
    have howner := hkeeps.methods other hother
    have hrow : entry.1.method = other.scope.method.row := congrArg (·.1) hkey
    have hstart : entry.1.startOffset = 0 := congrArg (·.2.1) hkey
    rw [hscope.method, hscope.startOffset, hscope.length, hrow, Token.methodDef_row howner,
      Token.beq_eq_beq_row howner hmethod, ← hrow]
    simp [LocalScopeRow.key, ScopeRecord.key, hstart, and_comm]
  have hfiltered := List.rel_filter (fun {entry scope} hboth => hsame entry scope hboth) hscopes
  rw [filter_sortScopes, ← List.filter_filter] at hfiltered
  have hkept := hkeeps.scopes record.key
  rw [hfirst, Option.toList_some] at hkept
  obtain ⟨entry, rest, hentry, hrest, hentries⟩ := List.forall₂_cons_right_iff.mp hkept
  rw [hentries, List.forall₂_nil_right_iff.mp hrest] at hfiltered
  obtain ⟨scope, more, hscope, hmore, hscopes⟩ := List.forall₂_cons_left_iff.mp hfiltered
  rw [List.forall₂_nil_left_iff.mp hmore] at hscopes
  exact ⟨scope, entry.1, hscopes, hscope.2, hentry⟩

/-- The blob of one namespace adds the name to the heap, and is the short position of the name. -/
theorem exists_encode_name {heap : BlobHeap.Builder} {values : List Bytes}
    (hlists : heap.Lists values) (name : String) (first : UInt32)
    (hfirst : heap.data.size = first.toNat)
    (hshort : first.toNat + 1 + (Bytes.ofText name).size < 0x80)
    (hne : (Bytes.ofText name).isEmpty = false) (hname : Bytes.ofText name ∉ values) :
    ∃ named, (Imports.encode [name]).run heap = .ok (#[1] ++ Bytes.ofNatBE 1 first.toNat) named ∧
      named.Lists (values ++ [Bytes.ofText name]) ∧
      named.data.size = first.toNat + 1 + (Bytes.ofText name).size := by
  obtain ⟨named, hadd, hnamed⟩ :=
    hlists.exists_add (Bytes.ofText name) first hfirst hname hne (by omega)
  have hform : Compressed.encodeUInt first.toNat = .ok (Bytes.ofNatBE 1 first.toNat) :=
    if_pos (by omega)
  refine ⟨named, ?_, hnamed, ?_⟩
  · rw [Imports.encode]
    refine run_bind_eq_ok_iff.mpr ⟨first, named, hadd, ?_⟩
    rw [hform]
    exact run_bind_eq_ok_iff.mpr
      ⟨#[], named, rfl, run_pure_eq_ok_iff.mpr ⟨Array.append_empty, rfl⟩⟩
  · rw [hnamed.data_eq, List.foldl_append, ← hlists.data_eq]
    simp only [List.foldl_cons, List.foldl_nil, Array.size_append, Bytes.size_ofNatBE]
    omega

/-- A scope of imports of one namespace adds two short blobs: the name, and the list of the name. -/
theorem exists_addImportScope (builder : DebugBuilder) {values : List Bytes}
    (hlists : builder.heaps.blobs.Lists values) (parent : UInt32) (hpos : 0 < parent.toNat)
    (hparent : parent.toNat ≤ builder.importScopes.size) {names : NameSet} {name : String}
    (hnames : names.toList = [name]) (rid first second : UInt32)
    (hrid : nextRow builder.importScopes.size = .ok rid)
    (hfirst : builder.heaps.blobs.data.size = first.toNat)
    (hsecond : first.toNat + 1 + (Bytes.ofText name).size = second.toNat)
    (hshort : second.toNat < 0x80) (hne : (Bytes.ofText name).isEmpty = false)
    (hname : Bytes.ofText name ∉ values)
    (hlist : #[1] ++ Bytes.ofNatBE 1 first.toNat ∉ values ++ [Bytes.ofText name]) :
    ∃ blobs, (addImportScope parent names).run builder = .ok rid { builder with
        heaps := { builder.heaps with blobs }
        importScopes := builder.importScopes.push ⟨rid, parent, second⟩ } ∧
      blobs.Lists (values ++ [Bytes.ofText name] ++ [#[1] ++ Bytes.ofNatBE 1 first.toNat]) := by
  obtain ⟨named, hencode, hnamed, hsize⟩ :=
    exists_encode_name hlists name first hfirst (by omega) hne hname
  obtain ⟨blobs, haddList, hblobs⟩ := hnamed.exists_add (#[1] ++ Bytes.ofNatBE 1 first.toNat)
    second (hsize.trans hsecond) hlist (by simp) (by simp)
  rw [← hnames] at hencode
  refine ⟨blobs, ?_, hblobs⟩
  refine run_bind_eq_ok_iff.mpr ⟨_, _, run_get_eq_ok_iff.mpr ⟨rfl, rfl⟩, ?_⟩
  refine run_guard_eq_ok_iff.mpr ⟨?_, ?_⟩
  · rw [Bool.or_eq_true, decide_eq_true_eq, decide_eq_true_eq, ← UInt32.toNat_inj]
    simp only [UInt32.toNat_zero]
    omega
  refine run_bind_eq_ok_iff.mpr ⟨second, _, run_onHeaps_eq_ok_iff.mpr
    ⟨{ builder.heaps with blobs }, run_bind_eq_ok_iff.mpr ⟨_, { builder.heaps with blobs := named },
      HeapBuilders.run_onBlobs_eq_ok_iff.mpr ⟨_, hencode, rfl⟩,
      HeapBuilders.run_onBlobs_eq_ok_iff.mpr ⟨_, haddList, rfl⟩⟩, rfl⟩, ?_⟩
  refine run_bind_eq_ok_iff.mpr ⟨_, _, run_get_eq_ok_iff.mpr ⟨rfl, rfl⟩, ?_⟩
  exact run_bind_eq_ok_iff.mpr ⟨rid, _, run_orFail_eq_ok_iff.mpr ⟨hrid, rfl⟩, rfl⟩

end DebugBuilder

namespace Generation

variable {module : Module} {decompiler : Decompiler} {options : GeneratorOptions}
  {compress : Bytes → Bytes} {newPool : PoolCreation} {generated : GeneratedContainer}

/-- The container of a run has one scope for the first record of each method and range, and the
scope leads through just the imports of the namespaces around the method, up to the first scope of
imports. -/
theorem generate_keeps_imports
    (hgenerated : generate module decompiler options compress newPool = .ok generated) :
    (Deflate.IsCompressor compress → generated.data.size < 0x100000000 →
      ∃ container, Container.ofBytes generated.data = .ok container) ∧
    ∀ container, Container.ofBytes generated.data = .ok container →
      ∀ record, (scopeRecordsOf module decompiler options compress).find? (·.key == record.key) =
        some record →
      ∃ scope,
        (container.scopesOf record.scope.method).filter (fun scope =>
          scope.startOffset == 0 && scope.length == record.scope.length) = [scope] ∧
        (∃ sets, Encloses record.namespaces record.scope.namespaceScope sets) ∧
        ∀ sets, Encloses record.namespaces record.scope.namespaceScope sets →
          container.ImportsFrom scope.importScope
            (sets.map fun names => names.toList.map .importNamespace) := by
  obtain ⟨builder, tables, diagnostics, hgenerates⟩ := exists_generates hgenerated
  refine ⟨hgenerates.exists_ofBytes, ?_⟩
  intro container hread record hfirst
  have hlists := hgenerates.lists hread
  obtain ⟨scope, row, hscope, hof, hstores⟩ :=
    hgenerates.keepsScopes.exists_scope hgenerates.finishes hlists hfirst
  obtain ⟨sets, hencloses, himports⟩ :=
    hgenerates.keepsScopes.importsFrom hgenerates.finishes hlists hstores
  refine ⟨scope, hscope, ⟨sets, hencloses⟩, ?_⟩
  intro others hothers
  rw [hothers.unique hencloses, hof.importScope]
  exact himports

/-- A decompiler that finds a method in a namespace with an import, in a file with another one. -/
def nestedDecompiler : Decompiler where
  decompile _ := .ok {
    syntaxTrees := [⟨.usingNamespace "System", none, []⟩, ⟨.namespaceScope "App", none,
      [⟨.usingNamespace "System.Linq", none, []⟩, ⟨.method, some 1, []⟩]⟩]
    functions := [{ id := 1, method := .methodDef 1 }]
    points := .points (.ofList []) }
  isHidden := (· == .typeDef 1)

/-- The namespaces of the file. -/
def nestedNamespaces : Array NamespaceScope :=
  #[⟨none, .ofList ["System"]⟩, ⟨some 0, .ofList ["System.Linq"]⟩]

def nestedRecords : FileRecords where
  document := sampleRecords.document
  scopes :=
    { namespaces := nestedNamespaces, methods := #[⟨.methodDef 1, 1, 2⟩], functions := #[1] }
  methods := [⟨.methodDef 1, none, {}⟩]

theorem outcomesOf_nested : outcomesOf builtModule nestedDecompiler sampleOptions Deflate.deflate =
    [{ path := "A.cs", records := some nestedRecords }] := by
  have hfiles : SourceFile.ofModule builtModule nestedDecompiler true =
      [⟨"A.cs", [.typeDef 2]⟩] := by decide
  exact outcomesOf_of_records hfiles (by decide +kernel)

/-- Behind the document the imports of the file and of the namespace get the next rows. -/
theorem exists_addNamespaces_nested {first : BlobHeap.Builder} {guids : GuidHeap.Builder}
    (hlists : first.Lists (sampleBlobs.take 4)) :
    ∃ blobs : BlobHeap.Builder,
      (FileRecords.addNamespaces nestedNamespaces.toList #[]).run (documentedBuilder first guids) =
        .ok #[2, 3] { documentedBuilder blobs guids with
          importScopes := #[⟨1, 0, 0⟩, ⟨2, 1, 56⟩, ⟨3, 2, 71⟩] } ∧
      blobs.size = 74 := by
  have hsystem : Bytes.ofText "System" = #[83, 121, 115, 116, 101, 109] := by decide
  have hlinq : Bytes.ofText "System.Linq" =
      #[83, 121, 115, 116, 101, 109, 46, 76, 105, 110, 113] := by decide
  have hsize : first.data.size = 49 := by
    rw [hlists.data_eq]
    decide
  obtain ⟨filed, hfile, hfiled⟩ := (documentedBuilder first guids).exists_addImportScope hlists 1
    (by decide) le_rfl (rfl : (NameSet.ofList ["System"]).toList = _) 2 49 56 rfl hsize
    (by rw [hsystem]; rfl) (by decide) (by rw [hsystem]; rfl) (by rw [hsystem]; decide)
    (by rw [hsystem]; decide)
  have hfiledSize : filed.data.size = 59 := by
    rw [hfiled.data_eq, hsystem]
    decide
  let outer : DebugBuilder :=
    { documentedBuilder filed guids with importScopes := #[⟨1, 0, 0⟩, ⟨2, 1, 56⟩] }
  obtain ⟨blobs, hinner, hblobs⟩ := outer.exists_addImportScope hfiled 2 (by decide) le_rfl
    (rfl : (NameSet.ofList ["System.Linq"]).toList = _) 3 59 71 rfl hfiledSize
    (by rw [hlinq]; rfl) (by decide) (by rw [hlinq]; rfl) (by rw [hsystem, hlinq]; decide)
    (by rw [hsystem, hlinq]; decide)
  refine ⟨blobs, ?_, ?_⟩
  · refine run_bind_eq_ok_iff.mpr ⟨2, _, hfile, ?_⟩
    exact run_bind_eq_ok_iff.mpr ⟨3, _, hinner, rfl⟩
  · rw [BlobHeap.Builder.size, hblobs.data_eq, hsystem, hlinq]
    decide

theorem isWithin_nested : IsWithin builtModule nestedDecompiler sampleOptions Deflate.deflate := by
  obtain ⟨first, guids, hdocument, hfirst, _⟩ := exists_addDocument_sample
  obtain ⟨blobs, hnamespaces, hsize⟩ := exists_addNamespaces_nested hfirst
  refine isWithin_of_method (by decide) outcomesOf_nested hdocument hnamespaces rfl rfl rfl
    rfl rfl rfl ?_
  have hroom : blobs.size < 0x20000000 := by omega
  constructor <;> simp [documentedBuilder, DebugBuilder.empty, hroom]

/-- The scope of the method leads through the namespace around it to the file. -/
theorem generate_keeps_imports_nested : ∃ generated container scope,
    generate builtModule nestedDecompiler sampleOptions = .ok generated ∧
      Container.ofBytes generated.data = .ok container ∧
      (container.scopesOf (.methodDef 1)).filter (fun scope =>
        scope.startOffset == 0 && scope.length == 2) = [scope] ∧
      container.ImportsFrom scope.importScope
        [[.importNamespace "System.Linq"], [.importNamespace "System"]] := by
  obtain ⟨generated, hgenerated, hsize⟩ := isWithin_nested.exists_generate isCounted_builtModule
    rfl (by simp [sampleOptions])
  obtain ⟨hexists, hkeeps⟩ := generate_keeps_imports hgenerated
  obtain ⟨container, hread⟩ := hexists Deflate.isCompressor_deflate hsize
  have hfirst :
      (scopeRecordsOf builtModule nestedDecompiler sampleOptions Deflate.deflate).find?
        (·.key == ScopeRecord.key ⟨nestedNamespaces, ⟨.methodDef 1, 1, 2⟩⟩) =
      some ⟨nestedNamespaces, ⟨.methodDef 1, 1, 2⟩⟩ := by
    rw [scopeRecordsOf, outcomesOf_nested]
    rfl
  obtain ⟨scope, hscope, _, himports⟩ := hkeeps container hread _ hfirst
  have hencloses : Encloses nestedNamespaces 1 [.ofList ["System.Linq"], .ofList ["System"]] :=
    .inner rfl (.file rfl (by decide))
  exact ⟨generated, container, scope, hgenerated, hread, hscope, himports _ hencloses⟩

end Generation

end PortablePdb
