import PortablePdb.Metadata.Rows.Debug

namespace PortablePdb

/-- The rows of the debug tables, and the bytes of the heaps. -/
structure DebugTables where
  documents : Array DocumentRow := #[]
  methods : Array MethodDebugRow := #[]
  localScopes : Array LocalScopeRow := #[]
  localVariables : Array LocalVariableRow := #[]
  localConstants : Array LocalConstantRow := #[]
  importScopes : Array ImportScopeRow := #[]
  stateMachines : Array StateMachineRow := #[]
  customInfo : Array CustomInfoRow := #[]
  strings : Bytes := #[]
  blobs : Bytes := #[]
  guids : Bytes := #[]
  deriving DecidableEq, Repr, Inhabited

namespace DebugTables

/-- The number of rows of a table; other tables than debug tables have none. -/
def size (tables : DebugTables) : Table → Nat
  | .document => tables.documents.size
  | .methodDebugInformation => tables.methods.size
  | .localScope => tables.localScopes.size
  | .localVariable => tables.localVariables.size
  | .localConstant => tables.localConstants.size
  | .importScope => tables.importScopes.size
  | .stateMachineMethod => tables.stateMachines.size
  | .customDebugInformation => tables.customInfo.size
  | _ => 0

/-- The number of rows of a table as a word. -/
def rowCount (tables : DebugTables) (table : Table) : UInt32 :=
  (min (tables.size table) 0xFFFFFFFF).toUInt32

/-- The number of methods that have sequence points. -/
def methodsWithPoints (tables : DebugTables) : Nat :=
  tables.methods.countP (·.sequencePoints != 0)

/-- Whether a scope may come right before another one: the longer of two scopes that start at the
same place is the outer one. -/
def scopeLE (first second : LocalScopeRow) : Bool :=
  first.method < second.method ||
    first.method == second.method &&
      (first.startOffset < second.startOffset ||
        first.startOffset == second.startOffset && second.length ≤ first.length)

/-- Rejects scopes that are out of order. -/
def checkScopes : List LocalScopeRow → Except Error Unit
  | first :: second :: rest => do
    if !scopeLE first second then reject (.localScopeOrder first.rid second.rid)
    checkScopes (second :: rest)
  | _ => .ok ()

/-- Rejects state machines that are out of order. -/
def checkMachines : List StateMachineRow → Except Error Unit
  | first :: second :: rest => do
    if second.moveNextMethod < first.moveNextMethod then
      reject (.stateMachineOrder first.rid second.rid)
    checkMachines (second :: rest)
  | _ => .ok ()

/-- Rejects custom debug information that is out of order. -/
def checkInfo : List CustomInfoRow → Except Error Unit
  | first :: second :: rest => do
    let key ← first.parent.encode .hasCustomDebugInformation
    let next ← second.parent.encode .hasCustomDebugInformation
    if next < key then reject (.customInfoOrder first.rid second.rid)
    checkInfo (second :: rest)
  | _ => .ok ()

/-- Rejects tables that are out of order. -/
def checkOrder (tables : DebugTables) : Except Error Unit := do
  checkScopes tables.localScopes.toList
  checkMachines tables.stateMachines.toList
  checkInfo tables.customInfo.toList

end DebugTables

end PortablePdb
