import PortablePdb.Module.Basic

namespace PortablePdb.Module

/-- Adds a type of any kind. -/
def pushType (module : Module) (namespaceName name : String) (enclosing : Option Token) :
    Module × Token :=
  let token := Token.typeDef (module.types.size + 1).toUInt32
  let types := module.types.push ⟨token, namespaceName, name, enclosing, #[]⟩
  let rowCounts := module.rowCounts.setTable .typeDef types.size.toUInt32
  ({ module with types, rowCounts }, token)

/-- The module with nothing but the type that stands for the module itself. -/
def named (name : String) : Module :=
  let empty : Module :=
    { name, methods := #[], types := #[], rowCounts := RowCounts.none.setTable .module 1
      entryPoint := ⟨0⟩, debugEntries := [], codeView := none }
  (empty.pushType "" "<Module>" none).1

/-- Adds a type at the top level. -/
def addType (module : Module) (namespaceName name : String) : Module × Token :=
  module.pushType namespaceName name none

/-- Adds a type within another one. -/
def addNestedType (module : Module) (enclosing : Token) (name : String) : Module × Token :=
  let nested := module.rowCount .nestedClass
  let (module, token) := module.pushType "" name (some enclosing)
  ({ module with rowCounts := module.rowCounts.setTable .nestedClass (nested + 1) }, token)

/-- Adds a method to the type in the row of a token, if there is one. -/
def addMethod (module : Module) (declaringType : Token) (name : String)
    (code : Option MethodCode) : Module × Token :=
  let token := Token.methodDef (module.methods.size + 1).toUInt32
  let methods := module.methods.push ⟨token, name, declaringType, code⟩
  let row := declaringType.row.toNat
  let types := if row = 0 then module.types
    else module.types.modify (row - 1) fun type =>
      { type with methods := type.methods.push token }
  let rowCounts := module.rowCounts.setTable .methodDef methods.size.toUInt32
  ({ module with methods, types, rowCounts }, token)

/-- Replaces the number of rows of a table. -/
def setRowCount (module : Module) (table : Table) (rows : UInt32) : Module :=
  { module with rowCounts := module.rowCounts.setTable table rows }

/-- Replaces the method that starts the program. -/
def setEntryPoint (module : Module) (token : Token) : Module :=
  { module with entryPoint := token }

/-- Replaces the record of the debug container, and adds an entry for it to the debug directory. -/
def setCodeView (module : Module) (codeView : CodeView) : Module :=
  let entry : DebugEntry :=
    { stamp := codeView.stamp, type := DebugEntry.codeViewType
      size := (25 + codeView.path.utf8ByteSize).toUInt32 }
  { module with codeView := some codeView, debugEntries := module.debugEntries ++ [entry] }

end PortablePdb.Module
