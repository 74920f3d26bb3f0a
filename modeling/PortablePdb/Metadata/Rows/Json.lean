import PortablePdb.Decompiled.Values
import PortablePdb.Metadata.Rows.Debug
import PortablePdb.Metadata.Rows.TypeSystem
import PortablePdb.Metadata.TablesStream

namespace PortablePdb

/-- A reference is written as the name of its table and its row. -/
def CodedIndex.toJson (index : CodedIndex) : Json :=
  .array [.string index.table.name, .nat index.row.toNat]

/-- A type of rows whose columns have names. -/
class NamedColumns (ρ : Type) where
  /-- The columns of a row, with their names. -/
  columns : ρ → List (String × Json)

/-- The JSON form of a row. -/
def Row.toJson {ρ : Type} [Row ρ] [NamedColumns ρ] (row : ρ) : Json :=
  .object <|
    [("rid", .nat (Row.rid row).toNat), ("token", (Row.token row).toJson)] ++
    NamedColumns.columns row

instance : NamedColumns ModuleRow where
  columns row :=
    [("generation", .nat row.generation.toNat), ("name", .nat row.name.toNat),
      ("mvid", .nat row.mvid.toNat), ("encid", .nat row.encId.toNat),
      ("encbaseid", .nat row.encBaseId.toNat)]

instance : NamedColumns TypeDefRow where
  columns row :=
    [("flags", .nat row.flags.toNat), ("type_name", .nat row.typeName.toNat),
      ("type_namespace", .nat row.typeNamespace.toNat), ("extends", row.baseType.toJson),
      ("field_list", .nat row.fieldList.toNat), ("method_list", .nat row.methodList.toNat)]

instance : NamedColumns MethodDefRow where
  columns row :=
    [("rva", .nat row.rva.toNat), ("impl_flags", .nat row.implFlags.toNat),
      ("flags", .nat row.flags.toNat), ("name", .nat row.name.toNat),
      ("signature", .nat row.signature.toNat), ("param_list", .nat row.paramList.toNat)]

instance : NamedColumns NestedClassRow where
  columns row :=
    [("nested_class", .nat row.nestedClass.toNat),
      ("enclosing_class", .nat row.enclosingClass.toNat)]

instance : NamedColumns DocumentRow where
  columns row :=
    [("name", .nat row.name.toNat), ("hash_algorithm", .nat row.hashAlgorithm.toNat),
      ("hash", .nat row.hash.toNat), ("language", .nat row.language.toNat)]

instance : NamedColumns MethodDebugRow where
  columns row :=
    [("document", .nat row.document.toNat), ("sequence_points", .nat row.sequencePoints.toNat)]

instance : NamedColumns LocalScopeRow where
  columns row :=
    [("method", .nat row.method.toNat), ("import_scope", .nat row.importScope.toNat),
      ("variable_list", .nat row.variableList.toNat),
      ("constant_list", .nat row.constantList.toNat),
      ("start_offset", .nat row.startOffset.toNat), ("length", .nat row.length.toNat)]

instance : NamedColumns LocalVariableRow where
  columns row :=
    [("attributes", .nat row.attributes.toNat), ("index", .nat row.index.toNat),
      ("name", .nat row.name.toNat)]

instance : NamedColumns LocalConstantRow where
  columns row := [("name", .nat row.name.toNat), ("signature", .nat row.signature.toNat)]

instance : NamedColumns ImportScopeRow where
  columns row := [("parent", .nat row.parent.toNat), ("imports", .nat row.imports.toNat)]

instance : NamedColumns StateMachineRow where
  columns row :=
    [("move_next_method", .nat row.moveNextMethod.toNat),
      ("kickoff_method", .nat row.kickoffMethod.toNat)]

instance : NamedColumns CustomInfoRow where
  columns row :=
    [("parent", row.parent.toJson), ("kind", .nat row.kind.toNat),
      ("value", .nat row.value.toNat)]

/-- The JSON form of the rows of a table. -/
def Row.allToJson {ρ : Type} [Row ρ] [NamedColumns ρ] (rows : Array ρ) : Json :=
  Json.ofList Row.toJson rows.toList

namespace TablesStream

/-- The rows of a table after its name, if the stream has the table. -/
def members (ρ : Type) [Row ρ] [NamedColumns ρ] (stream : TablesStream) : List (String × Json) :=
  if stream.hasTable (Row.table ρ) then
    [((Row.table ρ).name, Row.allToJson (stream.rows ρ))]
  else []

/-- The rows of all tables whose columns have names. -/
def allMembers (stream : TablesStream) : List (String × Json) :=
  stream.members ModuleRow ++ stream.members TypeDefRow ++ stream.members MethodDefRow ++
    stream.members NestedClassRow ++ stream.members DocumentRow ++ stream.members MethodDebugRow ++
    stream.members LocalScopeRow ++ stream.members LocalVariableRow ++
    stream.members LocalConstantRow ++ stream.members ImportScopeRow ++
    stream.members StateMachineRow ++ stream.members CustomInfoRow

end TablesStream

end PortablePdb
