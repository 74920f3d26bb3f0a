import PortablePdb.Container.Json
import PortablePdb.Module.Basic

namespace PortablePdb

/-- All fields are written. -/
def DebugEntry.toJson (entry : DebugEntry) : Json :=
  .object
    [("characteristics", .nat entry.characteristics.toNat), ("stamp", .nat entry.stamp.toNat),
      ("major", .nat entry.majorVersion.toNat), ("minor", .nat entry.minorVersion.toNat),
      ("type", .nat entry.type.toNat), ("size", .nat entry.size.toNat),
      ("rva", .nat entry.address.toNat), ("pointer", .nat entry.pointer.toNat)]

/-- All fields are written. -/
def CodeView.toJson (codeView : CodeView) : Json :=
  .object
    [("guid", .string codeView.guid.toText), ("age", .nat codeView.age.toNat),
      ("path", .string codeView.path), ("stamp", .nat codeView.stamp.toNat)]

/-- All fields are written, with the full name. -/
def ModuleType.toJson (type : ModuleType) : Json :=
  .object
    [("token", type.token.toJson), ("namespace", .string type.namespaceName),
      ("name", .string type.name), ("full_name", .string type.fullName),
      ("nested", .bool type.isNested), ("enclosing", Json.ofOption Token.toJson type.enclosing),
      ("methods", Json.ofList Token.toJson type.methods.toList)]

/-- Code is written as its size and the row of its local signature. -/
def MethodCode.toJson (code : MethodCode) : Json :=
  .array [.nat code.size.toNat, .nat code.localSignature.toNat]

/-- All fields are written. -/
def ModuleMethod.toJson (method : ModuleMethod) : Json :=
  .object
    [("token", method.token.toJson), ("name", .string method.name),
      ("type", method.declaringType.toJson), ("body", Json.ofOption MethodCode.toJson method.code)]

/-- The members of the JSON form of a module. -/
def Module.toMembers (module : Module) : List (String × Json) :=
  [("name", .string module.name),
    ("types", Json.ofList ModuleType.toJson module.types.toList),
    ("methods", Json.ofList ModuleMethod.toJson module.methods.toList),
    ("top_level", .nat module.topLevelTypes.length),
    ("method_count", .nat module.methodCount.toNat),
    ("row_counts", module.rowCounts.toJson), ("entry_point", module.entryPoint.toJson),
    ("debug_directory", Json.ofList DebugEntry.toJson module.debugEntries),
    ("codeview", Json.ofOption CodeView.toJson module.codeView)]

end PortablePdb
