import PortablePdb.Container.History
import PortablePdb.Proofs.Growth

namespace PortablePdb.DebugBuilder

open HeapBuilders

/-- The heaps of a builder come from those of another one by adding values. -/
def HeapsGrow (builder after : DebugBuilder) : Prop :=
  builder.heaps.GrowsTo after.heaps

instance : IsPreorder DebugBuilder HeapsGrow where
  refl _ := refl_of GrowsTo _
  trans first second third hfirst hsecond :=
    IsTrans.trans first.heaps second.heaps third.heaps hfirst hsecond

/-- Whatever comes of an action, heaps only grow. -/
abbrev KeepsHeaps {α : Type} (action : EStateM Error DebugBuilder α) : Prop :=
  Confined HeapsGrow (fun _ => True) action

theorem keepsHeaps_onHeaps {α : Type} {fails : Error → Prop} {action : EStateM Error HeapBuilders α}
    (haction : Confined GrowsTo fails action) : KeepsHeaps (onHeaps action) := by
  intro builder
  have hheaps := haction builder.heaps
  simp only [onHeaps, EStateM.run] at hheaps ⊢
  cases hrun : action builder.heaps with
  | ok a heaps =>
    rw [hrun] at hheaps
    exact hheaps
  | error error heaps =>
    rw [hrun] at hheaps
    exact ⟨hheaps.1, trivial⟩

theorem keepsHeaps_get_bind {α : Type} {rest : DebugBuilder → EStateM Error DebugBuilder α}
    (hrest : ∀ builder, KeepsHeaps (rest builder)) : KeepsHeaps (get >>= rest) :=
  fun builder => hrest builder builder

theorem keepsHeaps_modify {f : DebugBuilder → DebugBuilder}
    (hheaps : ∀ builder, (f builder).heaps = builder.heaps) :
    KeepsHeaps (modify f : EStateM Error DebugBuilder Unit) := by
  intro builder
  change builder.heaps.GrowsTo (f builder).heaps
  rw [hheaps]
  exact refl_of GrowsTo _

theorem keepsHeaps_modify_bind {α : Type} {f : DebugBuilder → DebugBuilder}
    {rest : Unit → EStateM Error DebugBuilder α}
    (hheaps : ∀ builder, (f builder).heaps = builder.heaps) (hrest : KeepsHeaps (rest ())) :
    KeepsHeaps (modify f >>= rest) :=
  (keepsHeaps_modify hheaps).bind fun _ => hrest

theorem keepsHeaps_throw {α : Type} (error : Error) :
    KeepsHeaps (throw error : EStateM Error DebugBuilder α) :=
  fun builder => ⟨refl_of HeapsGrow builder, trivial⟩

theorem keepsHeaps_guard {α β : Type} {condition : Prop} [Decidable condition] {error : Error}
    {more : α → EStateM Error DebugBuilder β} {rest : EStateM Error DebugBuilder β}
    (hrest : KeepsHeaps rest) :
    KeepsHeaps
      (if condition then (throw error : EStateM Error DebugBuilder α) >>= more else rest) := by
  by_cases hcondition : condition
  · rw [if_pos hcondition]
    exact fun builder => ⟨refl_of HeapsGrow builder, trivial⟩
  · rwa [if_neg hcondition]

theorem keepsHeaps_orFail {α : Type} (result : Except Error α) : KeepsHeaps (orFail result) := by
  cases result with
  | ok value => exact .pure _
  | error error => exact keepsHeaps_throw error

theorem keepsHeaps_checkMethod (method : Token) : KeepsHeaps (checkMethod method) := by
  unfold checkMethod
  split
  · exact .pure _
  · exact keepsHeaps_throw _

theorem keepsHeaps_addCustomInfo (parent : CodedIndex) (kind : CustomKind) (value : Bytes) :
    KeepsHeaps (addCustomInfo parent kind value) := by
  refine (?_ : KeepsHeaps (discard _)).bind fun _ => ?_
  · change KeepsHeaps ((fun _ => ()) <$> _)
    rw [map_eq_pure_bind]
    exact (keepsHeaps_orFail _).bind fun _ => .pure _
  · have hboth := (confined_addGuid kind.guid).bind fun guid =>
      (confined_addBlob value).bind fun blob => .pure (guid, blob)
    exact (keepsHeaps_onHeaps hboth).bind fun _ => keepsHeaps_modify fun _ => rfl

theorem keepsHeaps_addDocument (document : SourceDocument) :
    KeepsHeaps (addDocument document) := by
  refine keepsHeaps_get_bind fun builder => keepsHeaps_guard ?_
  refine keepsHeaps_get_bind fun builder => (keepsHeaps_orFail _).bind fun rid => ?_
  refine (keepsHeaps_onHeaps (confined_documentRow document rid)).bind fun row => ?_
  refine keepsHeaps_modify_bind (fun _ => rfl) ?_
  exact (keepsHeaps_addCustomInfo _ _ _).bind fun _ => .pure rid

theorem keepsHeaps_addImportScope (parent : UInt32) (names : NameSet) :
    KeepsHeaps (addImportScope parent names) := by
  have himports := (confined_onBlobs (Imports.confined_encode names.toList)).bind confined_addBlob
  refine keepsHeaps_get_bind fun builder => keepsHeaps_guard ?_
  refine (keepsHeaps_onHeaps himports).bind fun imports => ?_
  refine keepsHeaps_get_bind fun builder => (keepsHeaps_orFail _).bind fun rid => ?_
  exact keepsHeaps_modify_bind (fun _ => rfl) (.pure _)

theorem keepsHeaps_addMethod (method : Token) (document : UInt32) (points : Option Bytes) :
    KeepsHeaps (addMethod method document points) := by
  refine (keepsHeaps_checkMethod method).bind fun _ => keepsHeaps_get_bind fun builder => ?_
  split
  · exact .pure _
  · cases points with
    | none => exact keepsHeaps_modify_bind (fun _ => rfl) (.pure _)
    | some blob =>
      refine (keepsHeaps_onHeaps (confined_addBlob blob)).bind fun index => ?_
      exact keepsHeaps_modify_bind (fun _ => rfl) (.pure _)

theorem keepsHeaps_addLocalScope (method : Token) (importScope start length : UInt32)
    (slots : List LocalVariable) :
    KeepsHeaps (addLocalScope method importScope start length slots) := by
  refine (keepsHeaps_checkMethod method).bind fun _ => keepsHeaps_get_bind fun builder => ?_
  dsimp only
  split
  · exact .pure _
  · refine keepsHeaps_modify_bind (fun _ => rfl) ?_
    refine (keepsHeaps_onHeaps (confined_variableRows slots)).bind fun rows => ?_
    exact keepsHeaps_modify_bind (fun _ => rfl) (.pure _)

theorem keepsHeaps_addStateMachine (moveNext kickoff : Token) :
    KeepsHeaps (addStateMachine moveNext kickoff) := by
  refine (keepsHeaps_checkMethod moveNext).bind fun _ => ?_
  exact (keepsHeaps_checkMethod kickoff).bind fun _ => keepsHeaps_modify fun _ => rfl

theorem Operation.keepsHeaps : (operation : Operation) → KeepsHeaps operation.run
  | .addDocument document => (keepsHeaps_addDocument document).bind fun _ => .pure _
  | .documentRow _ => keepsHeaps_get_bind fun _ => .pure _
  | .addImportScope parent names => (keepsHeaps_addImportScope parent names).bind fun _ => .pure _
  | .importScopeCount => keepsHeaps_get_bind fun _ => .pure _
  | .addMethod method document points =>
    (keepsHeaps_addMethod method document points).bind fun _ => .pure _
  | .hasMethod _ => keepsHeaps_get_bind fun _ => .pure _
  | .addLocalScope method importScope start length slots =>
    (keepsHeaps_addLocalScope method importScope start length slots).bind fun _ => .pure _
  | .addStateMachine moveNext kickoff =>
    (keepsHeaps_addStateMachine moveNext kickoff).bind fun _ => .pure _
  | .addCustomInfo parent kind value =>
    (keepsHeaps_addCustomInfo parent kind value).bind fun _ => .pure _

/-- Whatever comes of an operation, heaps that look up values where they stand keep doing so. -/
theorem Operation.growsTo_step (operation : Operation) (builder : DebugBuilder) :
    builder.heaps.GrowsTo (operation.step builder).2.heaps := by
  unfold step
  cases hrun : operation.run.run builder with
  | ok answer after => exact operation.keepsHeaps.moves_of_ok hrun
  | error error after => exact (operation.keepsHeaps.of_error hrun).1

/-- The heaps of any builder look up values where they stand. -/
theorem isLookup_ofOperations (operations : List Operation) :
    (ofOperations operations).heaps.IsLookup := by
  apply history_induction (motive := fun _ builder => builder.heaps.IsLookup)
  · exact isLookup_empty
  · intro _ builder operation hbuilder
    exact (operation.growsTo_step builder).isLookup hbuilder

/-- What comes of an operation that succeeds. One that adds a record leaves what the addition left,
and one that only asks, or whose record was there before, leaves the builder as it is. -/
inductive Operation.Succeeds (builder : DebugBuilder) : Operation → Answer → DebugBuilder → Prop
  | addDocument {document : SourceDocument} {rid : UInt32} {after : DebugBuilder}
      (hadd : (DebugBuilder.addDocument document).run builder = .ok rid after) :
      Succeeds builder (.addDocument document) (.row rid) after
  | documentRow (path : String) :
      Succeeds builder (.documentRow path) (.found (builder.documentRow? path)) builder
  | addImportScope {parent rid : UInt32} {names : NameSet} {after : DebugBuilder}
      (hadd : (DebugBuilder.addImportScope parent names).run builder = .ok rid after) :
      Succeeds builder (.addImportScope parent names) (.row rid) after
  | importScopeCount : Succeeds builder .importScopeCount (.count builder.importScopeCount) builder
  | addMethod {method : Token} {document : UInt32} {points : Option Bytes} {after : DebugBuilder}
      (hadd : (DebugBuilder.addMethod method document points).run builder = .ok true after) :
      Succeeds builder (.addMethod method document points) (.added true) after
  | knownMethod (method : Token) (document : UInt32) (points : Option Bytes) :
      Succeeds builder (.addMethod method document points) (.added false) builder
  | hasMethod (method : Token) :
      Succeeds builder (.hasMethod method) (.has (builder.hasMethod method)) builder
  | addLocalScope {method : Token} {importScope start length : UInt32} {slots : List LocalVariable}
      {after : DebugBuilder}
      (hadd : (DebugBuilder.addLocalScope method importScope start length slots).run builder =
        .ok true after) :
      Succeeds builder (.addLocalScope method importScope start length slots) (.added true) after
  | knownLocalScope (method : Token) (importScope start length : UInt32)
      (slots : List LocalVariable) :
      Succeeds builder (.addLocalScope method importScope start length slots) (.added false) builder
  | addStateMachine {moveNext kickoff : Token} {after : DebugBuilder}
      (hadd : (DebugBuilder.addStateMachine moveNext kickoff).run builder = .ok () after) :
      Succeeds builder (.addStateMachine moveNext kickoff) .done after
  | addCustomInfo {parent : CodedIndex} {kind : CustomKind} {value : Bytes} {after : DebugBuilder}
      (hadd : (DebugBuilder.addCustomInfo parent kind value).run builder = .ok () after) :
      Succeeds builder (.addCustomInfo parent kind value) .done after

theorem Operation.succeeds {operation : Operation} {builder after : DebugBuilder} {answer : Answer}
    (hrun : operation.run.run builder = .ok answer after) (hsound : builder.heaps.IsSound) :
    Succeeds builder operation answer after := by
  cases operation with
  | addDocument document =>
    obtain ⟨_, _, hadd, hrun⟩ := run_bind_eq_ok_iff.mp hrun
    obtain ⟨rfl, rfl⟩ := run_pure_eq_ok_iff.mp hrun
    exact .addDocument hadd
  | documentRow path =>
    obtain ⟨rfl, rfl⟩ := run_pure_eq_ok_iff.mp hrun
    exact .documentRow path
  | addImportScope parent names =>
    obtain ⟨_, _, hadd, hrun⟩ := run_bind_eq_ok_iff.mp hrun
    obtain ⟨rfl, rfl⟩ := run_pure_eq_ok_iff.mp hrun
    exact .addImportScope hadd
  | importScopeCount =>
    obtain ⟨rfl, rfl⟩ := run_pure_eq_ok_iff.mp hrun
    exact .importScopeCount
  | addMethod method document points =>
    obtain ⟨isFirst, _, hadd, hrun⟩ := run_bind_eq_ok_iff.mp hrun
    obtain ⟨rfl, rfl⟩ := run_pure_eq_ok_iff.mp hrun
    cases isFirst with
    | true => exact .addMethod hadd
    | false =>
      obtain ⟨_, _, hknown, _⟩ := run_addMethod hadd hsound
      obtain rfl := hknown rfl
      exact .knownMethod method document points
  | hasMethod method =>
    obtain ⟨rfl, rfl⟩ := run_pure_eq_ok_iff.mp hrun
    exact .hasMethod method
  | addLocalScope method importScope start length slots =>
    obtain ⟨isFirst, _, hadd, hrun⟩ := run_bind_eq_ok_iff.mp hrun
    obtain ⟨rfl, rfl⟩ := run_pure_eq_ok_iff.mp hrun
    cases isFirst with
    | true => exact .addLocalScope hadd
    | false =>
      obtain ⟨_, _, hknown, _⟩ := run_addLocalScope hadd
      obtain rfl := hknown rfl
      exact .knownLocalScope method importScope start length slots
  | addStateMachine moveNext kickoff =>
    obtain ⟨_, _, hadd, hrun⟩ := run_bind_eq_ok_iff.mp hrun
    obtain ⟨rfl, rfl⟩ := run_pure_eq_ok_iff.mp hrun
    exact .addStateMachine hadd
  | addCustomInfo parent kind value =>
    obtain ⟨_, _, hadd, hrun⟩ := run_bind_eq_ok_iff.mp hrun
    obtain ⟨rfl, rfl⟩ := run_pure_eq_ok_iff.mp hrun
    exact .addCustomInfo hadd

end PortablePdb.DebugBuilder
