import PortablePdb.Decompiled.Manifest
import PortablePdb.Document.VirtualPath
import PortablePdb.Module.Basic

namespace PortablePdb

/-- A source file, with the tokens of its types. -/
structure SourceFile where
  path : String
  types : List Token
  deriving DecidableEq, Repr, Inhabited

namespace SourceFile

/-- Attributes that compilers put into a module by themselves, by their full names. -/
def injectedAttributes : List String :=
  ["System.Runtime.CompilerServices.IsReadOnlyAttribute",
    "System.Runtime.CompilerServices.IsByRefLikeAttribute",
    "System.Runtime.CompilerServices.IsUnmanagedAttribute",
    "System.Runtime.CompilerServices.NullableAttribute",
    "System.Runtime.CompilerServices.NullableContextAttribute",
    "System.Runtime.CompilerServices.NativeIntegerAttribute",
    "System.Runtime.CompilerServices.RefSafetyRulesAttribute",
    "System.Runtime.CompilerServices.ScopedRefAttribute",
    "Microsoft.CodeAnalysis.EmbeddedAttribute"]

/-- Whether a type is one that compilers make. -/
def isInjected (type : ModuleType) : Bool :=
  type.name == "<Module>" ||
    (type.namespaceName == "XamlGeneratedNamespace" &&
      type.name == "GeneratedInternalTypeHelper") ||
    injectedAttributes.contains type.fullName

/-- Whether a type has its place in a source file of its own right. -/
def isIncluded (decompiler : Decompiler) (type : ModuleType) : Bool :=
  !type.isNested && !isInjected type && !decompiler.isHidden type.token

/-- Adds a type to the file with a path, or to a new one at the end. -/
def addType (path : String) (type : Token) : List SourceFile → List SourceFile
  | [] => [⟨path, [type]⟩]
  | file :: files =>
    if file.path = path then { file with types := file.types ++ [type] } :: files
    else file :: addType path type files

/-- The source files of a module, in the order of their first types. -/
def ofModule (module : Module) (decompiler : Decompiler) (nestedDirectories : Bool) :
    List SourceFile :=
  (module.topLevelTypes.filter (isIncluded decompiler)).foldl (fun files type =>
    addType (VirtualPath.ofType nestedDirectories type.namespaceName type.name) type.token files) []

end SourceFile

end PortablePdb
