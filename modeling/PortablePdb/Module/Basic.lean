import PortablePdb.Image.Debug
import PortablePdb.Metadata.Layout

namespace PortablePdb

/-- The code of a method: its size, and the row of the signature of its local variables. -/
structure MethodCode where
  size : UInt32
  localSignature : UInt32
  deriving DecidableEq, Repr

/-- A method of a module. -/
structure ModuleMethod where
  token : Token
  name : String
  declaringType : Token
  code : Option MethodCode
  deriving DecidableEq, Repr

/-- A type of a module. -/
structure ModuleType where
  token : Token
  namespaceName : String
  name : String
  /-- The type within which this one is declared. -/
  enclosing : Option Token
  methods : Array Token
  deriving DecidableEq, Repr

namespace ModuleType

/-- Whether a type is declared within another one. -/
def isNested (type : ModuleType) : Bool :=
  type.enclosing.isSome

/-- The name of a type after that of its namespace. -/
def fullName (type : ModuleType) : String :=
  if type.namespaceName.isEmpty then type.name else type.namespaceName ++ "." ++ type.name

end ModuleType

/-- A module. -/
structure Module where
  name : String
  methods : Array ModuleMethod
  types : Array ModuleType
  rowCounts : RowCounts
  /-- The method that starts the program, or the null token. -/
  entryPoint : Token
  debugEntries : List DebugEntry
  codeView : Option CodeView
  deriving DecidableEq, Repr

namespace Module

/-- The types that are not declared within another one. -/
def topLevelTypes (module : Module) : List ModuleType :=
  module.types.toList.filter (!·.isNested)

/-- The number of rows of a table of the module. -/
def rowCount (module : Module) (table : Table) : UInt32 :=
  module.rowCounts.ofTable table

/-- The number of rows of methods. -/
def methodCount (module : Module) : UInt32 :=
  module.rowCount .methodDef

/-- The method with a token. -/
def method? (module : Module) (token : Token) : Option ModuleMethod :=
  if token.isTable .methodDef then module.methods[token.row.toNat - 1]? else none

/-- The type with a token. -/
def type? (module : Module) (token : Token) : Option ModuleType :=
  if token.isTable .typeDef then module.types[token.row.toNat - 1]? else none

end Module

end PortablePdb
