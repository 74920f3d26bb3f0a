namespace PortablePdb

/-- A kind of metadata table: those of the type system, and the eight that hold debug data. -/
inductive Table where
  | module
  | typeRef
  | typeDef
  | fieldPtr
  | field
  | methodPtr
  | methodDef
  | paramPtr
  | param
  | interfaceImpl
  | memberRef
  | constant
  | customAttribute
  | fieldMarshal
  | declSecurity
  | classLayout
  | fieldLayout
  | standAloneSig
  | eventMap
  | eventPtr
  | event
  | propertyMap
  | propertyPtr
  | property
  | methodSemantics
  | methodImpl
  | moduleRef
  | typeSpec
  | implMap
  | fieldRva
  | encLog
  | encMap
  | assembly
  | assemblyProcessor
  | assemblyOs
  | assemblyRef
  | assemblyRefProcessor
  | assemblyRefOs
  | file
  | exportedType
  | manifestResource
  | nestedClass
  | genericParam
  | methodSpec
  | genericParamConstraint
  | document
  | methodDebugInformation
  | localScope
  | localVariable
  | localConstant
  | importScope
  | stateMachineMethod
  | customDebugInformation
  deriving DecidableEq, Repr, Inhabited

namespace Table

/-- The id of a table in masks and tokens. -/
def id : Table → Nat
  | .module => 0x00
  | .typeRef => 0x01
  | .typeDef => 0x02
  | .fieldPtr => 0x03
  | .field => 0x04
  | .methodPtr => 0x05
  | .methodDef => 0x06
  | .paramPtr => 0x07
  | .param => 0x08
  | .interfaceImpl => 0x09
  | .memberRef => 0x0A
  | .constant => 0x0B
  | .customAttribute => 0x0C
  | .fieldMarshal => 0x0D
  | .declSecurity => 0x0E
  | .classLayout => 0x0F
  | .fieldLayout => 0x10
  | .standAloneSig => 0x11
  | .eventMap => 0x12
  | .eventPtr => 0x13
  | .event => 0x14
  | .propertyMap => 0x15
  | .propertyPtr => 0x16
  | .property => 0x17
  | .methodSemantics => 0x18
  | .methodImpl => 0x19
  | .moduleRef => 0x1A
  | .typeSpec => 0x1B
  | .implMap => 0x1C
  | .fieldRva => 0x1D
  | .encLog => 0x1E
  | .encMap => 0x1F
  | .assembly => 0x20
  | .assemblyProcessor => 0x21
  | .assemblyOs => 0x22
  | .assemblyRef => 0x23
  | .assemblyRefProcessor => 0x24
  | .assemblyRefOs => 0x25
  | .file => 0x26
  | .exportedType => 0x27
  | .manifestResource => 0x28
  | .nestedClass => 0x29
  | .genericParam => 0x2A
  | .methodSpec => 0x2B
  | .genericParamConstraint => 0x2C
  | .document => 0x30
  | .methodDebugInformation => 0x31
  | .localScope => 0x32
  | .localVariable => 0x33
  | .localConstant => 0x34
  | .importScope => 0x35
  | .stateMachineMethod => 0x36
  | .customDebugInformation => 0x37

/-- The name a table goes by in reports. -/
def name : Table → String
  | .module => "Module"
  | .typeRef => "TypeRef"
  | .typeDef => "TypeDef"
  | .fieldPtr => "FieldPtr"
  | .field => "Field"
  | .methodPtr => "MethodPtr"
  | .methodDef => "MethodDef"
  | .paramPtr => "ParamPtr"
  | .param => "Param"
  | .interfaceImpl => "InterfaceImpl"
  | .memberRef => "MemberRef"
  | .constant => "Constant"
  | .customAttribute => "CustomAttribute"
  | .fieldMarshal => "FieldMarshal"
  | .declSecurity => "DeclSecurity"
  | .classLayout => "ClassLayout"
  | .fieldLayout => "FieldLayout"
  | .standAloneSig => "StandAloneSig"
  | .eventMap => "EventMap"
  | .eventPtr => "EventPtr"
  | .event => "Event"
  | .propertyMap => "PropertyMap"
  | .propertyPtr => "PropertyPtr"
  | .property => "Property"
  | .methodSemantics => "MethodSemantics"
  | .methodImpl => "MethodImpl"
  | .moduleRef => "ModuleRef"
  | .typeSpec => "TypeSpec"
  | .implMap => "ImplMap"
  | .fieldRva => "FieldRVA"
  | .encLog => "EncLog"
  | .encMap => "EncMap"
  | .assembly => "Assembly"
  | .assemblyProcessor => "AssemblyProcessor"
  | .assemblyOs => "AssemblyOS"
  | .assemblyRef => "AssemblyRef"
  | .assemblyRefProcessor => "AssemblyRefProcessor"
  | .assemblyRefOs => "AssemblyRefOS"
  | .file => "File"
  | .exportedType => "ExportedType"
  | .manifestResource => "ManifestResource"
  | .nestedClass => "NestedClass"
  | .genericParam => "GenericParam"
  | .methodSpec => "MethodSpec"
  | .genericParamConstraint => "GenericParamConstraint"
  | .document => "Document"
  | .methodDebugInformation => "MethodDebugInformation"
  | .localScope => "LocalScope"
  | .localVariable => "LocalVariable"
  | .localConstant => "LocalConstant"
  | .importScope => "ImportScope"
  | .stateMachineMethod => "StateMachineMethod"
  | .customDebugInformation => "CustomDebugInformation"

/-- Every table, by ascending id. -/
def all : List Table :=
  [.module, .typeRef, .typeDef, .fieldPtr, .field, .methodPtr, .methodDef, .paramPtr, .param,
   .interfaceImpl, .memberRef, .constant, .customAttribute, .fieldMarshal, .declSecurity,
   .classLayout, .fieldLayout, .standAloneSig, .eventMap, .eventPtr, .event, .propertyMap,
   .propertyPtr, .property, .methodSemantics, .methodImpl, .moduleRef, .typeSpec, .implMap,
   .fieldRva, .encLog, .encMap, .assembly, .assemblyProcessor, .assemblyOs, .assemblyRef,
   .assemblyRefProcessor, .assemblyRefOs, .file, .exportedType, .manifestResource, .nestedClass,
   .genericParam, .methodSpec, .genericParamConstraint, .document, .methodDebugInformation,
   .localScope, .localVariable, .localConstant, .importScope, .stateMachineMethod,
   .customDebugInformation]

/-- The table with an id, unless no table has it. -/
def ofId? (id : Nat) : Option Table :=
  all.find? (·.id == id)

/-- Debug tables are the ones a debug container stores itself. -/
def isDebug (table : Table) : Bool :=
  0x30 ≤ table.id

/-- The bit that stands for a table in the masks of present and of sorted tables. -/
def mask (table : Table) : UInt64 :=
  1 <<< table.id.toUInt64

theorem mem_all (table : Table) : table ∈ all := by
  cases table <;> decide

theorem id_lt (table : Table) : table.id < 64 := by
  cases table <;> decide

theorem ofId?_id (table : Table) : ofId? table.id = some table := by
  cases table <;> decide

theorem id_injective {a b : Table} (hid : a.id = b.id) : a = b :=
  Option.some.inj (by rw [← ofId?_id a, hid, ofId?_id b])

end Table

end PortablePdb
