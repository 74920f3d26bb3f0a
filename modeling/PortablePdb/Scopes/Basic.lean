import PortablePdb.Imports.NameSet
import PortablePdb.Metadata.Token

namespace PortablePdb

/-- The imports of a namespace, which come on top of those of the namespace around it. -/
structure NamespaceScope where
  /-- The place of the namespace around this one in the list of scopes; the file itself has none. -/
  parent : Option Nat := none
  imports : NameSet := .empty
  deriving DecidableEq, Inhabited

/-- The scope of the whole code of a method. -/
structure MethodScope where
  method : Token
  /-- The place of the namespace in the list of scopes. -/
  namespaceScope : Nat
  length : UInt32
  deriving DecidableEq, Repr, Inhabited

/-- The scopes of a file, in the order in which its syntax opens them. The first namespace scope is
that of the file itself. -/
structure FileScopes where
  namespaces : Array NamespaceScope := #[{}]
  methods : Array MethodScope := #[]
  /-- The functions for which there are scopes, by their ids. -/
  functions : Array UInt32 := #[]
  deriving DecidableEq, Inhabited

end PortablePdb
