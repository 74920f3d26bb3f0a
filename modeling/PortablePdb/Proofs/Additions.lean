import PortablePdb.Proofs.Failures
import PortablePdb.Proofs.Order

namespace PortablePdb

open StringHeap

/-- A row has the attributes and the slot of a variable, and refers to its name. -/
structure LocalVariableRow.Stores (row : LocalVariableRow) (strings : Bytes)
    (slot : LocalVariable) : Prop where
  attributes : row.attributes = slot.attributes
  index : row.index = slot.index
  name : HasString strings row.name slot.name

/-- Scopes of imports are a tree below the global one, each with its own number. -/
structure IsImportTree (rows : Array ImportScopeRow) : Prop where
  global : rows[0]? = some ⟨DebugBuilder.globalScope, 0, 0⟩
  numbered : IsNumbered (·.rid) rows
  parent : ∀ row ∈ rows, row.rid ≠ DebugBuilder.globalScope →
    ∃ parent ∈ rows, parent.rid = row.parent ∧ parent.rid < row.rid

theorem IsImportTree.push {rows : Array ImportScopeRow} (htree : IsImportTree rows)
    {row : ImportScopeRow} (hnext : DebugBuilder.nextRow rows.size = .ok row.rid)
    (hparent : row.parent ≠ 0 ∧ row.parent.toNat ≤ rows.size) : IsImportTree (rows.push row) where
  global := by
    have hsize : 0 < rows.size := (Array.getElem?_eq_some_iff.mp htree.global).1
    rw [Array.getElem?_push_lt hsize, ← Array.getElem?_eq_getElem hsize, htree.global]
  numbered := htree.numbered.push (DebugBuilder.nextRow_eq_ok hnext).1
  parent := by
    intro other hother hnotGlobal
    rcases Array.mem_push.mp hother with hold | rfl
    · obtain ⟨parent, hmem, hrid, hlt⟩ := htree.parent other hold hnotGlobal
      exact ⟨parent, Array.mem_push_of_mem _ hmem, hrid, hlt⟩
    · obtain ⟨parent, hmem, hrid⟩ := htree.numbered.exists_mem hparent.1 hparent.2
      refine ⟨parent, Array.mem_push_of_mem _ hmem, hrid, ?_⟩
      rw [UInt32.lt_iff_toNat_lt, (DebugBuilder.nextRow_eq_ok hnext).1, hrid]
      omega

/-- Scopes of imports have parents that there are; the global one has none. -/
theorem IsImportTree.parent_le {rows : Array ImportScopeRow} (htree : IsImportTree rows) :
    ∀ row ∈ rows, row.parent.toNat ≤ rows.size := by
  intro row hrow
  obtain ⟨i, hi, rfl⟩ := Array.mem_iff_getElem.mp hrow
  by_cases hglobal : rows[i].rid = DebugBuilder.globalScope
  · have hrid : rows[i].rid.toNat = i + 1 := htree.numbered i hi
    rw [hglobal] at hrid
    obtain rfl : i = 0 := by
      simp only [DebugBuilder.globalScope, UInt32.reduceToNat] at hrid
      omega
    have hfirst := htree.global
    rw [Array.getElem?_eq_getElem hi] at hfirst
    rw [Option.some.inj hfirst]
    exact Nat.zero_le _
  · obtain ⟨parent, hparent, hrid, _⟩ := htree.parent _ hrow hglobal
    obtain ⟨j, hj, rfl⟩ := Array.mem_iff_getElem.mp hparent
    rw [← hrid, htree.numbered j hj]
    exact hj

namespace DebugBuilder

open HeapBuilders

/-- What was added to a builder: the records of each kind, in the order in which they came. -/
structure Additions where
  submissions : List (UInt32 × UInt32 × Option Bytes) := []
  scopes : List AddedScope := []
  machines : List (UInt32 × UInt32) := []
  infos : List (CodedIndex × CustomKind × Bytes) := []

/-- What was added in the course of a history. -/
def additions (events : List Event) : Additions where
  submissions := events.filterMap Event.submission?
  scopes := events.filterMap Event.scope?
  machines := events.filterMap Event.machine?
  infos := events.filterMap Event.info?

/-- What there is after one more event. -/
def Additions.add (added : Additions) (event : Event) : Additions where
  submissions := added.submissions ++ event.submission?.toList
  scopes := added.scopes ++ event.scope?.toList
  machines := added.machines ++ event.machine?.toList
  infos := added.infos ++ event.info?.toList

theorem additions_concat (events : List Event) (event : Event) :
    additions (events ++ [event]) = (additions events).add event := by
  simp only [additions, Additions.add, List.filterMap_append, List.filterMap_cons,
    List.filterMap_nil]
  cases event.submission? <;> cases event.scope? <;> cases event.machine? <;>
    cases event.info? <;> rfl

theorem Additions.add_error (added : Additions) (operation : Operation) (error : Error) :
    added.add ⟨operation, .error error⟩ = added := by
  cases operation <;> simp [add]

/-- The variables of a scope in the order of their slots. -/
def AddedScope.sortedSlots (scope : AddedScope) : List LocalVariable :=
  scope.slots.mergeSort fun a b => a.index ≤ b.index

/-- The method and the range of a scope. -/
def AddedScope.key (scope : AddedScope) : UInt32 × UInt32 × UInt32 :=
  (scope.method, scope.startOffset, scope.length)

/-- The row of a scope before it is numbered. -/
def AddedScope.row (scope : AddedScope) : LocalScopeRow :=
  ⟨0, scope.method, scope.importScope, 0, 0, scope.startOffset, scope.length⟩

/-- A record has the fields of a scope and the rows of its variables. -/
structure StoresScope (strings : Bytes) (record : LocalScopeRow × List LocalVariableRow)
    (scope : AddedScope) : Prop where
  row_eq : record.1 = scope.row
  slots : List.Forall₂ (fun row slot => row.Stores strings slot) record.2 scope.sortedSlots

/-- An entry has the document and the points of a submission; without points, or without a
submission, it is zero. -/
def StoresSubmission (blobs : Bytes) (entry : UInt32 × UInt32) :
    Option (UInt32 × Option Bytes) → Prop
  | some (document, some points) => entry.1 = document ∧ BlobHeap.HasBlob blobs entry.2 points
  | _ => entry = (0, 0)

/-- A builder holds what was added to it, and its heaps hold what the records refer to. -/
structure Holds (builder : DebugBuilder) (added : Additions) : Prop where
  heaps : builder.heaps.IsLookup
  documents : IsNumbered (·.rid) builder.documents
  importScopes : IsImportTree builder.importScopes
  hasMethod : ∀ row, builder.methods.contains row = (added.submissions.lookup row).isSome
  methods : ∀ row, StoresSubmission builder.heaps.blobs.data (builder.methods.getD row (0, 0))
    (added.submissions.lookup row)
  localScopes : List.Forall₂ (StoresScope builder.heaps.strings.data) builder.localScopes.toList
    added.scopes
  method_ne_zero : ∀ scope ∈ added.scopes, scope.method ≠ 0
  scopeKeys : ∀ scope ∈ added.scopes, builder.scopeKeys.contains scope.key = true
  distinct : added.scopes.Pairwise fun a b => a.key ≠ b.key
  machines : builder.machines.toList = added.machines
  customInfo : List.Forall₂ (StoresInfo builder.heaps.blobs.data builder.heaps.guids.data)
    builder.customInfo.toList added.infos
  parents : ∀ info ∈ added.infos, ∃ key, info.1.encode .hasCustomDebugInformation = .ok key

theorem isImportTree_empty : IsImportTree empty.importScopes where
  global := rfl
  numbered := by
    intro i hi
    obtain rfl : i = 0 := Nat.lt_one_iff.mp hi
    rfl
  parent := by
    intro row hrow hnotGlobal
    obtain rfl := List.mem_singleton.mp (Array.mem_toList_iff.mpr hrow)
    exact absurd rfl hnotGlobal

theorem holds_empty : empty.Holds {} where
  heaps := isLookup_empty
  documents := isNumbered_empty _
  importScopes := isImportTree_empty
  hasMethod _ := Std.HashMap.contains_empty
  methods _ := Std.HashMap.getD_empty
  localScopes := .nil
  method_ne_zero := nofun
  scopeKeys := nofun
  distinct := .nil
  machines := rfl
  customInfo := .nil
  parents := nofun

theorem StoresScope.grow {strings : Bytes} {record : LocalScopeRow × List LocalVariableRow}
    {scope : AddedScope} (hscope : StoresScope strings record scope) (more : Bytes) :
    StoresScope (strings ++ more) record scope where
  row_eq := hscope.row_eq
  slots := hscope.slots.imp fun _ _ hslot => ⟨hslot.attributes, hslot.index, hslot.name.grow more⟩

theorem StoresSubmission.grow {blobs : Bytes} {entry : UInt32 × UInt32}
    {submission : Option (UInt32 × Option Bytes)} (hentry : StoresSubmission blobs entry submission)
    (more : Bytes) : StoresSubmission (blobs ++ more) entry submission := by
  match submission, hentry with
  | some (_, some _), ⟨hdocument, hpoints⟩ => exact ⟨hdocument, hpoints.grow more⟩
  | some (_, none), hzero => exact hzero
  | none, hzero => exact hzero

variable {builder after : DebugBuilder} {added : Additions}

/-- What a builder holds it still holds when its heaps have grown. -/
theorem Holds.grow (hholds : builder.Holds added) {heaps : HeapBuilders}
    (hgrows : builder.heaps.GrowsTo heaps) : { builder with heaps : DebugBuilder }.Holds added := by
  have hextends := hgrows.extends hholds.heaps
  obtain ⟨strings, hstrings⟩ := hextends.strings
  obtain ⟨blobs, hblobs⟩ := hextends.blobs
  exact { hholds with
    heaps := hgrows.isLookup hholds.heaps
    methods := fun row => hblobs ▸ (hholds.methods row).grow blobs
    localScopes := hholds.localScopes.imp fun _ _ hscope => hstrings ▸ hscope.grow strings
    customInfo := hholds.customInfo.imp fun _ _ hinfo => hextends.storesInfo hinfo }

theorem Holds.pushInfo (hholds : builder.Holds added) {record : CodedIndex × UInt32 × UInt32}
    {info : CodedIndex × CustomKind × Bytes}
    (hrecord : StoresInfo builder.heaps.blobs.data builder.heaps.guids.data record info)
    (hparent : ∃ key, info.1.encode .hasCustomDebugInformation = .ok key) :
    { builder with customInfo := builder.customInfo.push record : DebugBuilder }.Holds
      { added with infos := added.infos ++ [info] } :=
  { hholds with
    customInfo := by
      rw [Array.toList_push]
      exact List.rel_append hholds.customInfo (.cons hrecord .nil)
    parents := by
      intro other hother
      rcases List.mem_append.mp hother with hold | hnew
      · exact hholds.parents other hold
      · rwa [List.mem_singleton.mp hnew] }

theorem Holds.addCustomInfo (hholds : builder.Holds added) {parent : CodedIndex}
    {kind : CustomKind} {value : Bytes} {done : Unit}
    (hrun : (addCustomInfo parent kind value).run builder = .ok done after)
    (hgrows : builder.heaps.GrowsTo after.heaps) :
    after.Holds { added with infos := added.infos ++ [(parent, kind, value)] } := by
  obtain ⟨hparent, heaps, record, _, hrecord, rfl⟩ :=
    run_addCustomInfo hrun hholds.heaps.isSound
  exact (hholds.grow hgrows).pushInfo hrecord hparent

theorem Holds.addDocument (hholds : builder.Holds added) {document : SourceDocument} {rid : UInt32}
    (hrun : (addDocument document).run builder = .ok rid after)
    (hgrows : builder.heaps.GrowsTo after.heaps) :
    after.Holds { added with
      infos := added.infos ++ [(⟨.document, rid⟩, .embeddedSource, document.embedded)] } := by
  obtain ⟨heaps, row, record, _, hnext, rfl, _, hrecord, rfl⟩ :=
    run_addDocument hrun hholds.heaps.isSound
  exact { (hholds.grow hgrows).pushInfo hrecord ⟨_, rfl⟩ with
    documents := hholds.documents.push (nextRow_eq_ok hnext).1 }

theorem Holds.addImportScope (hholds : builder.Holds added) {parent rid : UInt32}
    {names : NameSet} (hrun : (addImportScope parent names).run builder = .ok rid after)
    (hgrows : builder.heaps.GrowsTo after.heaps) : after.Holds added := by
  obtain ⟨hparent, heaps, row, _, hnext, rfl, rfl, _, rfl⟩ :=
    run_addImportScope hrun hholds.heaps.isSound
  exact { hholds.grow hgrows with importScopes := hholds.importScopes.push hnext hparent }

/-- The first submission of a method is what is held for it. -/
theorem Holds.addMethod (hholds : builder.Holds added) {method : Token} {document : UInt32}
    {points : Option Bytes} (hrun : (addMethod method document points).run builder = .ok true after)
    (hgrows : builder.heaps.GrowsTo after.heaps) :
    after.Holds { added with
      submissions := added.submissions ++ [(method.row, document, points)] } := by
  obtain ⟨_, hnew, _, hadd⟩ := run_addMethod hrun hholds.heaps.isSound
  obtain ⟨heaps, entry, _, hpoints, hnone, rfl⟩ := hadd rfl
  have hgrown := hholds.grow hgrows
  have hlookup : added.submissions.lookup method.row = none := by
    have hhas := hholds.hasMethod method.row
    rw [DebugBuilder.hasMethod] at hnew
    rw [← Option.isNone_iff_eq_none, ← Option.not_isSome, ← hhas, ← hnew]
  exact { hgrown with
    hasMethod := by
      intro row
      rw [Std.HashMap.contains_insert, hholds.hasMethod, List.lookup_append]
      by_cases hsame : row = method.row
      · simp [hsame]
      · simp [List.lookup_cons, List.lookup_nil, Ne.symm hsame, beq_eq_false_iff_ne.mpr hsame]
    methods := by
      intro row
      rw [Std.HashMap.getD_insert, List.lookup_append]
      by_cases hsame : row = method.row
      · subst hsame
        simp only [beq_self_eq_true, if_true, hlookup, List.lookup_cons, Option.none_or]
        cases points with
        | none => exact hnone rfl
        | some blob => exact hpoints blob rfl
      · have hother := hgrown.methods row
        simpa [List.lookup_cons, hsame, Ne.symm hsame, beq_eq_false_iff_ne.mpr hsame] using hother }

/-- The rows of variables store the variables. -/
theorem run_variableRows {heaps later : HeapBuilders} {slots : List LocalVariable}
    {rows : List LocalVariableRow} (hrun : (variableRows slots).run heaps = .ok rows later)
    (hheaps : heaps.IsLookup) :
    List.Forall₂ (fun row slot => row.Stores later.strings.data slot) rows slots := by
  induction slots generalizing heaps rows with
  | nil =>
    obtain ⟨rfl, rfl⟩ := run_pure_eq_ok_iff.mp hrun
    exact .nil
  | cons slot slots ih =>
    obtain ⟨name, middle, hname, hrun⟩ := run_bind_eq_ok_iff.mp hrun
    obtain ⟨rest, _, hrest, hrun⟩ := run_bind_eq_ok_iff.mp hrun
    obtain ⟨rfl, rfl⟩ := run_pure_eq_ok_iff.mp hrun
    have hmiddle := ((confined_addString slot.name).moves_of_ok hname).isLookup hheaps
    have hlater := ((confined_variableRows slots).moves_of_ok hrest).extends hmiddle
    obtain ⟨more, hmore⟩ := hlater.strings
    obtain ⟨strings, hadd, rfl⟩ := run_onStrings_eq_ok_iff.mp hname
    obtain ⟨_, _, hstring⟩ := StringHeap.Builder.run_add hadd hheaps.strings
    exact .cons ⟨rfl, rfl, hmore ▸ hstring.grow more⟩ (ih hrest hmiddle)

theorem Holds.addLocalScope (hholds : builder.Holds added) {method : Token}
    {importScope start length : UInt32} {slots : List LocalVariable}
    (hrun : (addLocalScope method importScope start length slots).run builder = .ok true after)
    (hgrows : builder.heaps.GrowsTo after.heaps) :
    after.Holds { added with
      scopes := added.scopes ++ [⟨method.row, importScope, start, length, slots⟩] } := by
  obtain ⟨hmethod, hnew, _, hadd⟩ := run_addLocalScope hrun
  obtain ⟨heaps, rows, hrows, rfl⟩ := hadd rfl
  have hgrown := hholds.grow hgrows
  have hslots := forall₂_mergeSort (r := fun a b => a.index ≤ b.index)
    (s := fun a b => a.index ≤ b.index) (run_variableRows hrows hholds.heaps)
    fun a b a' b' ha ha' => by rw [ha.index, ha'.index]
  exact { hgrown with
    localScopes := by
      rw [Array.toList_push]
      exact List.rel_append hgrown.localScopes (.cons ⟨rfl, hslots⟩ .nil)
    method_ne_zero := by
      intro scope hscope
      rcases List.mem_append.mp hscope with hold | hlast
      · exact hholds.method_ne_zero scope hold
      · rw [List.mem_singleton.mp hlast]
        exact Token.row_ne_zero hmethod
    scopeKeys := by
      intro scope hscope
      rw [Std.HashSet.contains_insert]
      rcases List.mem_append.mp hscope with hold | hlast
      · rw [hholds.scopeKeys scope hold, Bool.or_true]
      · rw [List.mem_singleton.mp hlast]
        simp [AddedScope.key]
    distinct := by
      refine List.pairwise_append.mpr ⟨hholds.distinct, List.pairwise_singleton _ _, ?_⟩
      intro scope hscope last hlast hsame
      rw [List.mem_singleton.mp hlast] at hsame
      have hknown := hholds.scopeKeys scope hscope
      rw [hsame, AddedScope.key] at hknown
      rw [hknown] at hnew
      cases hnew }

theorem Holds.addStateMachine (hholds : builder.Holds added) {moveNext kickoff : Token}
    {done : Unit} (hrun : (addStateMachine moveNext kickoff).run builder = .ok done after) :
    after.Holds { added with
      machines := added.machines ++ [(moveNext.row, kickoff.row)] } := by
  obtain rfl := run_addStateMachine hrun
  exact { hholds with
    machines := by
      rw [Array.toList_push, hholds.machines] }

/-- An operation that failed has added nothing, but perhaps the row of a document. -/
theorem Holds.of_fails (hholds : builder.Holds added) {error : Error}
    (hfails : builder.Fails error after) (hgrows : builder.heaps.GrowsTo after.heaps) :
    after.Holds added := by
  have hgrown := hholds.grow hgrows
  have hleaves := hfails.toLeaves
  exact {
    heaps := hgrown.heaps
    documents := by
      rcases hleaves.documents with ⟨hsame, _⟩ | ⟨row, _, hnext, hmore, _⟩
      · exact hsame ▸ hholds.documents
      · exact hmore ▸ hholds.documents.push (nextRow_eq_ok hnext).1
    importScopes := hleaves.importScopes ▸ hgrown.importScopes
    hasMethod := hleaves.methods ▸ hgrown.hasMethod
    methods := hleaves.methods ▸ hgrown.methods
    localScopes := hleaves.localScopes ▸ hgrown.localScopes
    method_ne_zero := hgrown.method_ne_zero
    scopeKeys := fun scope hscope => hleaves.contains_scopeKeys (hgrown.scopeKeys scope hscope)
    distinct := hgrown.distinct
    machines := hleaves.machines ▸ hgrown.machines
    customInfo := hleaves.customInfo ▸ hgrown.customInfo
    parents := hgrown.parents }

/-- What an operation adds, the builder holds afterwards. -/
theorem Holds.step {events : List Event} (hholds : builder.Holds (additions events))
    (operation : Operation) :
    (operation.step builder).2.Holds (additions (events ++ [(operation.step builder).1])) := by
  have hgrows := operation.growsTo_step builder
  rw [additions_concat]
  unfold Operation.step at *
  cases hrun : operation.run.run builder with
  | error error after =>
    simp only [hrun] at hgrows ⊢
    rw [Additions.add_error]
    exact hholds.of_fails (operation.fails hrun) hgrows
  | ok answer after =>
    simp only [hrun] at hgrows ⊢
    cases operation.succeeds hrun hholds.heaps.isSound with
    | addDocument hadd => simpa [Additions.add] using hholds.addDocument hadd hgrows
    | addImportScope hadd => simpa [Additions.add] using hholds.addImportScope hadd hgrows
    | addMethod hadd => simpa [Additions.add] using hholds.addMethod hadd hgrows
    | addLocalScope hadd => simpa [Additions.add] using hholds.addLocalScope hadd hgrows
    | addStateMachine hadd => simpa [Additions.add] using hholds.addStateMachine hadd
    | addCustomInfo hadd => simpa [Additions.add] using hholds.addCustomInfo hadd hgrows
    | documentRow | importScopeCount | hasMethod | knownMethod | knownLocalScope =>
      simpa [Additions.add] using hholds

/-- Builders hold what their histories have added. -/
theorem holds_ofOperations (operations : List Operation) :
    (ofOperations operations).Holds (additions (history operations)) := by
  apply history_induction (motive := fun events builder => builder.Holds (additions events))
  · exact holds_empty
  · intro events builder operation hholds
    exact hholds.step operation

end DebugBuilder

end PortablePdb
