import PortablePdb.Metadata.Token

namespace PortablePdb

/-- One import of a scope. -/
inductive Import where
  | importNamespace (name : String)
  | importAssemblyNamespace (assembly : Token) (name : String)
  | importType (type : Token)
  | importXmlNamespace (shortName name : String)
  | importAssemblyReferenceAlias (shortName : String)
  | defineAssemblyAlias (shortName : String) (assembly : Token)
  | defineNamespaceAlias (shortName name : String)
  | defineAssemblyNamespaceAlias (shortName : String) (assembly : Token) (name : String)
  | defineTypeAlias (shortName : String) (type : Token)
  deriving DecidableEq, Repr

/-- The namespace whose members an import makes visible, if it does that. -/
def Import.namespace? : Import → Option String
  | .importNamespace name => some name
  | .importAssemblyNamespace _ name => some name
  | _ => none

end PortablePdb
