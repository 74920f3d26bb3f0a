import PortablePdb.Container.Builder

namespace PortablePdb.DebugBuilder

/-- An operation on a builder, with its arguments. -/
inductive Operation where
  | addDocument (document : SourceDocument)
  | documentRow (path : String)
  | addImportScope (parent : UInt32) (names : NameSet)
  | importScopeCount
  | addMethod (method : Token) (document : UInt32) (points : Option Bytes)
  | hasMethod (method : Token)
  | addLocalScope (method : Token) (importScope startOffset length : UInt32)
      (slots : List LocalVariable)
  | addStateMachine (moveNext kickoff : Token)
  | addCustomInfo (parent : CodedIndex) (kind : CustomKind) (value : Bytes)

/-- What an operation answers when it succeeds. -/
inductive Answer where
  | done
  | row (rid : UInt32)
  /-- Whether the record was added. -/
  | added (isNew : Bool)
  | has (isKnown : Bool)
  | found (rid? : Option UInt32)
  | count (rows : Nat)
  deriving DecidableEq

/-- Carries out an operation. -/
def Operation.run : Operation → EStateM Error DebugBuilder Answer
  | addDocument document => return .row (← DebugBuilder.addDocument document)
  | documentRow path => return .found ((← get).documentRow? path)
  | addImportScope parent names => return .row (← DebugBuilder.addImportScope parent names)
  | importScopeCount => return .count (← get).importScopeCount
  | addMethod method document points =>
    return .added (← DebugBuilder.addMethod method document points)
  | hasMethod method => return .has ((← get).hasMethod method)
  | addLocalScope method importScope startOffset length slots =>
    return .added (← DebugBuilder.addLocalScope method importScope startOffset length slots)
  | addStateMachine moveNext kickoff => do
    DebugBuilder.addStateMachine moveNext kickoff
    return .done
  | addCustomInfo parent kind value => do
    DebugBuilder.addCustomInfo parent kind value
    return .done

/-- An operation with what came of it. -/
structure Event where
  operation : Operation
  outcome : Except Error Answer

/-- What comes of an operation, and the builder that it leaves. -/
def Operation.step (operation : Operation) (builder : DebugBuilder) : Event × DebugBuilder :=
  match operation.run.run builder with
  | .ok answer after => (⟨operation, .ok answer⟩, after)
  | .error error after => (⟨operation, .error error⟩, after)

/-- Carries out operations one after the other. One that fails does not stop those after it. -/
def perform : List Operation → DebugBuilder → List Event × DebugBuilder
  | [], builder => ([], builder)
  | operation :: rest, builder =>
    let (event, middle) := operation.step builder
    let (events, after) := perform rest middle
    (event :: events, after)

/-- What comes of operations on a builder without records. -/
def history (operations : List Operation) : List Event :=
  (perform operations empty).1

/-- The builder after some operations. -/
def ofOperations (operations : List Operation) : DebugBuilder :=
  (perform operations empty).2

/-- A scope as it was added. -/
structure AddedScope where
  method : UInt32
  importScope : UInt32
  startOffset : UInt32
  length : UInt32
  slots : List LocalVariable
  deriving DecidableEq

namespace Event

/-- Whether an operation was refused: it failed, or it answered that there was such a record. -/
def isRefusal : Event → Bool
  | ⟨_, .error _⟩ => true
  | ⟨_, .ok (.added isNew)⟩ => !isNew
  | _ => false

/-- The scope that an event added. -/
@[simp] def scope? : Event → Option AddedScope
  | ⟨.addLocalScope method importScope startOffset length slots, .ok (.added true)⟩ =>
    some ⟨method.row, importScope, startOffset, length, slots⟩
  | _ => none

/-- The rows of the state machine that an event added. -/
@[simp] def machine? : Event → Option (UInt32 × UInt32)
  | ⟨.addStateMachine moveNext kickoff, .ok _⟩ => some (moveNext.row, kickoff.row)
  | _ => none

/-- The custom debug information that an event added; with a document comes its source. -/
@[simp] def info? : Event → Option (CodedIndex × CustomKind × Bytes)
  | ⟨.addCustomInfo parent kind value, .ok _⟩ => some (parent, kind, value)
  | ⟨.addDocument document, .ok (.row rid)⟩ =>
    some (⟨.document, rid⟩, .embeddedSource, document.embedded)
  | _ => none

/-- The row of the method that an event submitted, with its document and points. -/
@[simp] def submission? : Event → Option (UInt32 × UInt32 × Option Bytes)
  | ⟨.addMethod method document points, .ok (.added true)⟩ => some (method.row, document, points)
  | _ => none

end Event

theorem perform_append (first second : List Operation) (builder : DebugBuilder) :
    perform (first ++ second) builder =
      ((perform first builder).1 ++ (perform second (perform first builder).2).1,
        (perform second (perform first builder).2).2) := by
  induction first generalizing builder with
  | nil => rfl
  | cons operation first ih => simp only [List.cons_append, perform, ih]

theorem ofOperations_concat (operations : List Operation) (operation : Operation) :
    ofOperations (operations ++ [operation]) = (operation.step (ofOperations operations)).2 := by
  simp only [ofOperations, perform_append, perform]

/-- A property of histories and the builders that they lead to holds of all of them if it holds at
first and each operation keeps it. -/
theorem history_induction {motive : List Event → DebugBuilder → Prop} (hempty : motive [] empty)
    (hstep : ∀ events builder (operation : Operation), motive events builder →
      motive (events ++ [(operation.step builder).1]) (operation.step builder).2)
    (operations : List Operation) : motive (history operations) (ofOperations operations) := by
  have hperform (events : List Event) (builder : DebugBuilder) (hbuilder : motive events builder) :
      motive (events ++ (perform operations builder).1) (perform operations builder).2 := by
    induction operations generalizing events builder with
    | nil => simpa [perform] using hbuilder
    | cons operation operations ih =>
      have hnext := ih _ _ (hstep events builder operation hbuilder)
      rwa [List.append_assoc] at hnext
  exact hperform [] empty hempty

end PortablePdb.DebugBuilder
