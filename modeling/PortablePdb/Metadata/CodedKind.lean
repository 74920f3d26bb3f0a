import PortablePdb.Metadata.Token

namespace PortablePdb

/-- A kind of coded index, that is a list of tables such an index may refer to. -/
inductive CodedKind where
  | typeDefOrRef
  | hasConstant
  | hasCustomAttribute
  | hasFieldMarshal
  | hasDeclSecurity
  | memberRefParent
  | hasSemantics
  | methodDefOrRef
  | memberForwarded
  | implementation
  | customAttributeType
  | resolutionScope
  | typeOrMethodDef
  | hasCustomDebugInformation
  deriving DecidableEq, Repr, Inhabited

namespace CodedKind

/-- Every kind, in the order of their numbers. -/
def all : List CodedKind :=
  [.typeDefOrRef, .hasConstant, .hasCustomAttribute, .hasFieldMarshal, .hasDeclSecurity,
   .memberRefParent, .hasSemantics, .methodDefOrRef, .memberForwarded, .implementation,
   .customAttributeType, .resolutionScope, .typeOrMethodDef, .hasCustomDebugInformation]

/-- The name a kind goes by in reports. -/
def name : CodedKind → String
  | .typeDefOrRef => "TypeDefOrRef"
  | .hasConstant => "HasConstant"
  | .hasCustomAttribute => "HasCustomAttribute"
  | .hasFieldMarshal => "HasFieldMarshal"
  | .hasDeclSecurity => "HasDeclSecurity"
  | .memberRefParent => "MemberRefParent"
  | .hasSemantics => "HasSemantics"
  | .methodDefOrRef => "MethodDefOrRef"
  | .memberForwarded => "MemberForwarded"
  | .implementation => "Implementation"
  | .customAttributeType => "CustomAttributeType"
  | .resolutionScope => "ResolutionScope"
  | .typeOrMethodDef => "TypeOrMethodDef"
  | .hasCustomDebugInformation => "HasCustomDebugInformation"

/-- The tables of a kind: the tag of a table is its place in this list. -/
def tables : CodedKind → List Table
  | .typeDefOrRef => [.typeDef, .typeRef, .typeSpec]
  | .hasConstant => [.field, .param, .property]
  | .hasCustomAttribute =>
      [.methodDef, .field, .typeRef, .typeDef, .param, .interfaceImpl, .memberRef, .module,
       .declSecurity, .property, .event, .standAloneSig, .moduleRef, .typeSpec, .assembly,
       .assemblyRef, .file, .exportedType, .manifestResource, .genericParam,
       .genericParamConstraint, .methodSpec]
  | .hasFieldMarshal => [.field, .param]
  | .hasDeclSecurity => [.typeDef, .methodDef, .assembly]
  | .memberRefParent => [.typeDef, .typeRef, .moduleRef, .methodDef, .typeSpec]
  | .hasSemantics => [.event, .property]
  | .methodDefOrRef => [.methodDef, .memberRef]
  | .memberForwarded => [.field, .methodDef]
  | .implementation => [.file, .assemblyRef, .exportedType]
  | .customAttributeType => [.methodDef, .methodDef, .methodDef, .memberRef, .memberRef]
  | .resolutionScope => [.module, .moduleRef, .assemblyRef, .typeRef]
  | .typeOrMethodDef => [.typeDef, .methodDef]
  | .hasCustomDebugInformation =>
      [.methodDef, .field, .typeRef, .typeDef, .param, .interfaceImpl, .memberRef, .module,
       .declSecurity, .property, .event, .standAloneSig, .moduleRef, .typeSpec, .assembly,
       .assemblyRef, .file, .exportedType, .manifestResource, .genericParam,
       .genericParamConstraint, .methodSpec, .document, .localScope, .localVariable,
       .localConstant, .importScope]

/-- The number of low bits that hold the tag: the fewest that tell the kind's tables apart. -/
def tagBits (kind : CodedKind) : Nat :=
  (kind.tables.length - 1).log2 + 1

/-- The number of tags that these bits can hold. -/
def tagSpan (kind : CodedKind) : Nat :=
  1 <<< kind.tagBits

theorem mem_all (kind : CodedKind) : kind ∈ all := by
  cases kind <;> decide

theorem length_tables_le (kind : CodedKind) : kind.tables.length ≤ kind.tagSpan := by
  cases kind <;> decide

theorem tagBits_le (kind : CodedKind) : kind.tagBits ≤ 5 := by
  cases kind <;> decide

end CodedKind

end PortablePdb
