import Std.Data.HashMap
import Std.Data.HashSet
import PortablePdb.Container.Basic
import PortablePdb.Container.Tables
import PortablePdb.Document.Name
import PortablePdb.Document.Source
import PortablePdb.Heap.Builders
import PortablePdb.Imports.Blob
import PortablePdb.Imports.NameSet

namespace PortablePdb

/-- Tables under construction. -/
structure DebugBuilder where
  heaps : HeapBuilders := {}
  documents : Array DocumentRow := #[]
  /-- The row of each document, by its path. -/
  documentRows : Std.HashMap String UInt32 := ∅
  /-- The document and the blob of points of each method that was submitted, by its row. -/
  methods : Std.HashMap UInt32 (UInt32 × UInt32) := ∅
  importScopes : Array ImportScopeRow := #[]
  /-- The scopes without row numbers, each with its variables. -/
  localScopes : Array (LocalScopeRow × List LocalVariableRow) := #[]
  /-- The method, start and length of each scope. -/
  scopeKeys : Std.HashSet (UInt32 × UInt32 × UInt32) := ∅
  /-- The rows of the methods that run and that start each state machine. -/
  machines : Array (UInt32 × UInt32) := #[]
  /-- The parent, kind and value of each record of custom debug information. -/
  customInfo : Array (CodedIndex × UInt32 × UInt32) := #[]

namespace DebugBuilder

/-- The row of the scope of imports that encloses all others. -/
def globalScope : UInt32 := 1

/-- The builder of a container without records. Its only row is the global scope of imports. -/
def empty : DebugBuilder :=
  { importScopes := #[⟨globalScope, 0, 0⟩] }

instance : Inhabited DebugBuilder := ⟨empty⟩

/-- The number of the row that comes after some number of rows, which has to fit a token. -/
def nextRow (count : Nat) : Except Error UInt32 :=
  if count + 1 ≤ 0xFFFFFF then .ok (count + 1).toUInt32 else reject .rowRange

/-- Runs an action on the heaps. -/
def onHeaps {α : Type} (action : EStateM Error HeapBuilders α) : EStateM Error DebugBuilder α :=
  fun ⟨heaps, documents, documentRows, methods, importScopes, localScopes, scopeKeys, machines,
      customInfo⟩ =>
    match action.run heaps with
    | .ok value heaps =>
      .ok value ⟨heaps, documents, documentRows, methods, importScopes, localScopes, scopeKeys,
        machines, customInfo⟩
    | .error error heaps =>
      .error error ⟨heaps, documents, documentRows, methods, importScopes, localScopes, scopeKeys,
        machines, customInfo⟩

/-- Takes over a result that does not depend on the builder. -/
def orFail {α : Type} : Except Error α → EStateM Error DebugBuilder α
  | .ok value => pure value
  | .error error => throw error

/-- Adds a record of custom debug information about a row. -/
def addCustomInfo (parent : CodedIndex) (kind : CustomKind) (value : Bytes) :
    EStateM Error DebugBuilder Unit := do
  discard <| orFail (parent.encode .hasCustomDebugInformation)
  let (kind, value) ← onHeaps do
    return (← HeapBuilders.addGuid kind.guid, ← HeapBuilders.addBlob value)
  modify fun builder => { builder with customInfo := builder.customInfo.push (parent, kind, value) }

/-- The row of a document whose name, hash and other parts are added to the heaps. -/
def documentRow (document : SourceDocument) (rid : UInt32) :
    EStateM Error HeapBuilders DocumentRow := do
  let nameBlob ← HeapBuilders.onBlobs (DocumentName.encode document.path)
  return {
    rid
    name := ← HeapBuilders.addBlob nameBlob
    hashAlgorithm := ← HeapBuilders.addGuid sha256Algorithm
    hash := ← HeapBuilders.addBlob document.hash.toArray
    language := ← HeapBuilders.addGuid csharpLanguage }

/-- Adds a document with its embedded source, and gives its row. A path can be added once. -/
def addDocument (document : SourceDocument) : EStateM Error DebugBuilder UInt32 := do
  if (← get).documentRows.contains document.path then throw (.duplicateDocument document.path)
  let rid ← orFail (nextRow (← get).documents.size)
  let row ← onHeaps (documentRow document rid)
  modify fun builder =>
    { builder with
      documents := builder.documents.push row
      documentRows := builder.documentRows.insert document.path rid }
  addCustomInfo ⟨.document, rid⟩ .embeddedSource document.embedded
  return rid

/-- The row of the document with a path. -/
def documentRow? (builder : DebugBuilder) (path : String) : Option UInt32 :=
  builder.documentRows[path]?

/-- Adds a scope of imports within another one, and gives its row. -/
def addImportScope (parent : UInt32) (names : NameSet) : EStateM Error DebugBuilder UInt32 := do
  if parent = 0 || (← get).importScopes.size < parent.toNat then reject (.importParent parent)
  let imports ← onHeaps do
    HeapBuilders.addBlob (← HeapBuilders.onBlobs (Imports.encode names.toList))
  let rid ← orFail (nextRow (← get).importScopes.size)
  modify fun builder =>
    { builder with importScopes := builder.importScopes.push { rid, parent, imports } }
  return rid

/-- The number of scopes of imports. -/
def importScopeCount (builder : DebugBuilder) : Nat :=
  builder.importScopes.size

/-- Whether a method was submitted. -/
def hasMethod (builder : DebugBuilder) (method : Token) : Bool :=
  builder.methods.contains method.row

/-- Refuses a token that is no method. -/
def checkMethod (method : Token) : EStateM Error DebugBuilder Unit :=
  if method.isTable .methodDef then pure () else throw (.invalidMethod method)

/-- Submits a method with its points, if it has any. The first submission of a method counts, and
the result tells whether this is the first. -/
def addMethod (method : Token) (document : UInt32) (points : Option Bytes) :
    EStateM Error DebugBuilder Bool := do
  checkMethod method
  if (← get).hasMethod method then return false
  let entry ← match points with
    | some blob => pure (document, ← onHeaps (HeapBuilders.addBlob blob))
    | none => pure (0, 0)
  modify fun builder => { builder with methods := builder.methods.insert method.row entry }
  return true

/-- The rows of local variables, without their numbers. Their names are added to the heaps. -/
def variableRows : List LocalVariable → EStateM Error HeapBuilders (List LocalVariableRow)
  | [] => return []
  | first :: rest => do
    let name ← HeapBuilders.addString first.name
    return ⟨0, first.attributes, first.index, name⟩ :: (← variableRows rest)

/-- Adds a scope with its variables. A second scope of the same method, start and length is left
out, and the result tells whether the scope was added. -/
def addLocalScope (method : Token) (importScope startOffset length : UInt32)
    (slots : List LocalVariable) : EStateM Error DebugBuilder Bool := do
  checkMethod method
  let key := (method.row, startOffset, length)
  if (← get).scopeKeys.contains key then return false
  modify fun builder => { builder with scopeKeys := builder.scopeKeys.insert key }
  let slots := (← onHeaps (variableRows slots)).mergeSort fun a b => a.index ≤ b.index
  let scope : LocalScopeRow :=
    { rid := 0, method := method.row, importScope, variableList := 0, constantList := 0,
      startOffset, length }
  modify fun builder => { builder with localScopes := builder.localScopes.push (scope, slots) }
  return true

/-- Adds a state machine. -/
def addStateMachine (moveNext kickoff : Token) : EStateM Error DebugBuilder Unit := do
  checkMethod moveNext
  checkMethod kickoff
  modify fun builder =>
    { builder with machines := builder.machines.push (moveNext.row, kickoff.row) }

/-- The rows of a number of methods; a method that was not submitted has an empty one. -/
def methodRows (builder : DebugBuilder) (count : UInt32) : Array MethodDebugRow :=
  Array.ofFn fun i : Fin count.toNat =>
    let rid := (i.val + 1).toUInt32
    let (document, sequencePoints) := builder.methods.getD rid (0, 0)
    { rid, document, sequencePoints }

/-- The smallest row above a number of methods among those that were submitted. -/
def excessMethod? (builder : DebugBuilder) (count : UInt32) : Option UInt32 :=
  (builder.methods.keys.filter (count < ·)).min?

/-- Numbers variables, after those that have numbers already. -/
def numberVariables : List LocalVariableRow → Array LocalVariableRow →
    Except Error (Array LocalVariableRow)
  | [], rows => .ok rows
  | row :: rest, rows => do
    let rid ← nextRow rows.size
    numberVariables rest (rows.push { row with rid })

/-- Numbers scopes and their variables, after those that have numbers already. The variables of a
scope are the run of rows from its own start to the start of the next scope. -/
def numberScopes (methodCount : UInt32) : List (LocalScopeRow × List LocalVariableRow) →
    Array LocalScopeRow → Array LocalVariableRow →
    Except Error (Array LocalScopeRow × Array LocalVariableRow)
  | [], scopes, slots => .ok (scopes, slots)
  | (scope, own) :: rest, scopes, slots => do
    if methodCount < scope.method then throw (.invalidMethod (.methodDef scope.method))
    let rid ← nextRow scopes.size
    let variableList ← nextRow slots.size
    let slots ← numberVariables own slots
    numberScopes methodCount rest
      (scopes.push { scope with rid, variableList, constantList := 1 }) slots

/-- Numbers state machines, after those that have numbers already. -/
def numberMachines : List (UInt32 × UInt32) → Array StateMachineRow →
    Except Error (Array StateMachineRow)
  | [], rows => .ok rows
  | (moveNextMethod, kickoffMethod) :: rest, rows => do
    let rid ← nextRow rows.size
    numberMachines rest (rows.push { rid, moveNextMethod, kickoffMethod })

/-- Numbers records of custom debug information, after those that have numbers already. -/
def numberInfo : List (CodedIndex × UInt32 × UInt32) → Array CustomInfoRow →
    Except Error (Array CustomInfoRow)
  | [], rows => .ok rows
  | (parent, kind, value) :: rest, rows => do
    let rid ← nextRow rows.size
    numberInfo rest (rows.push { rid, parent, kind, value })

/-- Records of custom debug information in the order of their parents. -/
def sortInfo (records : List (CodedIndex × UInt32 × UInt32)) :
    Except Error (List (CodedIndex × UInt32 × UInt32)) := do
  let keyed ← records.mapM fun record =>
    return (← record.1.encode .hasCustomDebugInformation, record)
  return (keyed.mergeSort fun a b => a.1 ≤ b.1).map (·.2)

/-- The finished tables of a module with a number of methods. -/
def finish (builder : DebugBuilder) (methodCount : UInt32) : Except Error DebugTables := do
  if let some row := builder.excessMethod? methodCount then
    throw (.invalidMethod (.methodDef row))
  let scopes := builder.localScopes.toList.mergeSort fun a b => DebugTables.scopeLE a.1 b.1
  let (localScopes, localVariables) ← numberScopes methodCount scopes #[] #[]
  let machines := builder.machines.toList.mergeSort fun a b => a.1 ≤ b.1
  let stateMachines ← numberMachines machines #[]
  let customInfo ← numberInfo (← sortInfo builder.customInfo.toList) #[]
  let tables : DebugTables :=
    { documents := builder.documents, methods := builder.methodRows methodCount
      localScopes, localVariables, importScopes := builder.importScopes, stateMachines, customInfo
      strings := builder.heaps.strings.toBytes
      blobs := builder.heaps.blobs.toBytes
      guids := builder.heaps.guids.toBytes }
  tables.checkOrder
  return tables

end DebugBuilder

end PortablePdb
