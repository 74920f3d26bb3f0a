import PortablePdb.Container.Builder
import PortablePdb.Generation.FileRecords

namespace PortablePdb.FileRecords

/-- Adds the scopes of imports of a file, and gives their rows. The scope of the file itself has no
row of its own when it imports nothing. -/
def addNamespaces : List NamespaceScope → Array UInt32 → EStateM Error DebugBuilder (Array UInt32)
  | [], rows => return rows
  | scope :: scopes, rows => do
    let row ← match scope.parent with
      | none =>
        if scope.imports.isEmpty then pure DebugBuilder.globalScope
        else DebugBuilder.addImportScope DebugBuilder.globalScope scope.imports
      | some parent =>
        DebugBuilder.addImportScope (rows.getD parent DebugBuilder.globalScope) scope.imports
    addNamespaces scopes (rows.push row)

/-- Adds the scopes of methods. -/
def addMethodScopes (rows : Array UInt32) : List MethodScope → EStateM Error DebugBuilder Unit
  | [] => return
  | scope :: scopes => do
    let importScope := rows.getD scope.namespaceScope DebugBuilder.globalScope
    discard <| DebugBuilder.addLocalScope scope.method importScope 0 scope.length []
    addMethodScopes rows scopes

/-- Adds what is known about a state machine and about stepping. -/
def addMachine (records : FunctionRecords) : EStateM Error DebugBuilder Unit := do
  if let some machine := records.machine then
    DebugBuilder.addStateMachine machine.moveNext machine.kickoff
    DebugBuilder.addCustomInfo ⟨.methodDef, machine.moveNext.row⟩ .hoistedLocalScopes
      machine.hoisted
  if let some (method, stepping) := records.stepping then
    DebugBuilder.addCustomInfo ⟨.methodDef, method.row⟩ .asyncStepping stepping

/-- Adds the methods of a document, and reports those that were submitted before. -/
def addMethods (path : String) (document : UInt32) :
    List MethodRecords → EStateM Error DebugBuilder (List Diagnostic)
  | [] => return []
  | entry :: entries => do
    if ← DebugBuilder.addMethod entry.method document entry.points then
      addMachine entry.records
      addMethods path document entries
    else
      let duplicate := report path .warning .duplicateMethod
        "Duplicate sequence point definition, the first one is kept" entry.method
      return duplicate :: (← addMethods path document entries)

/-- Adds the records of a file, and reports the methods that were submitted before. -/
def merge (path : String) (file : FileRecords) : EStateM Error DebugBuilder (List Diagnostic) := do
  let document ← DebugBuilder.addDocument file.document
  let rows ← addNamespaces file.scopes.namespaces.toList #[]
  addMethodScopes rows file.scopes.methods.toList
  addMethods path document file.methods

end PortablePdb.FileRecords

namespace PortablePdb.FileOutcome

/-- Adds what came of files, and gives the diagnostics about all of them. -/
def mergeAll : List FileOutcome → EStateM Error DebugBuilder (List Diagnostic)
  | [] => return []
  | outcome :: outcomes => do
    let merged ← match outcome.records with
      | some records => records.merge outcome.path
      | none => pure []
    return outcome.diagnostics ++ merged ++ (← mergeAll outcomes)

end PortablePdb.FileOutcome
