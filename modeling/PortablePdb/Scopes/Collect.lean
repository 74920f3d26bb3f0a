import PortablePdb.Decompiled.File
import PortablePdb.Module.Basic
import PortablePdb.Scopes.Basic

namespace PortablePdb

/-- How a node of a syntax tree takes part in the scopes of its file. -/
inductive ScopeRole where
  /-- The node opens a scope of imports for its children. -/
  | opensNamespace
  /-- The node adds an import to the scope around it. -/
  | imports (name : String)
  /-- The node is the body of its function. -/
  | body
  /-- The first children of the node are the bodies of some functions. -/
  | clauses (functions : List (Option UInt32))
  /-- The node matters only for what is inside it. -/
  | plain
  deriving DecidableEq, Repr

/-- The role of a node of some kind. The first `from` of a query is its source and no function, and
a clause without functions is nothing special. -/
def NodeKind.scopeRole (isFirst : Bool) : NodeKind → ScopeRole
  | .namespaceScope _ => .opensNamespace
  | .usingNamespace name => .imports name
  | .property hasExpressionBody | .indexer hasExpressionBody =>
    if hasExpressionBody then .body else .plain
  | .queryFrom => if isFirst then .plain else .body
  | .queryGroup first second | .queryJoin first second =>
    if first.isSome || second.isSome then .clauses [first, second] else .plain
  | kind => if kind.isMethodLike then .body else .plain

namespace FileScopes

/-- How deep the nodes of a syntax tree may be nested. -/
def maxDepth : Nat := 512

/-- Opens a scope of imports within another one. -/
def openNamespace (scopes : FileScopes) (parent : Nat) : FileScopes :=
  { scopes with namespaces := scopes.namespaces.push { parent := some parent } }

/-- Adds an import to a scope. -/
def addImport (scopes : FileScopes) (slot : Nat) (name : String) : FileScopes :=
  { scopes with namespaces := scopes.namespaces.modify slot fun scope =>
      { scope with imports := scope.imports.insert name } }

/-- Adds the scope of a method, if the method has code. -/
def addMethod (module : Module) (slot : Nat) (scopes : FileScopes) (method : Token) : FileScopes :=
  match (module.method? method).bind (·.code) with
  | some code => { scopes with methods := scopes.methods.push ⟨method, slot, code.size⟩ }
  | none => scopes

/-- Adds a function and the scopes of its methods. A function that the file does not list is left
out, and so is one that is no method of the module. -/
def addFunction (file : DecompiledFile) (module : Module) (slot : Nat) (scopes : FileScopes)
    (function : Option UInt32) : FileScopes :=
  match function.bind file.function? with
  | some entry =>
    if entry.method.isTable .methodDef then
      (entry.method :: entry.moveNext.toList).foldl (addMethod module slot)
        { scopes with functions := scopes.functions.push entry.id }
    else scopes
  | none => scopes

mutual

/-- Adds the scopes of a node at a depth, within a namespace. -/
def visit (file : DecompiledFile) (module : Module) (depth slot : Nat) (isFirst : Bool) :
    SyntaxNode → FileScopes → Except Error FileScopes
  | ⟨kind, function, children⟩, scopes =>
    if maxDepth ≤ depth then .error (.nesting maxDepth)
    else
      match kind.scopeRole isFirst with
      | .opensNamespace =>
        visitAll file module (depth + 1) scopes.namespaces.size true children
          (scopes.openNamespace slot)
      | .imports name => .ok (scopes.addImport slot name)
      | .body => do
        let scopes ← visitAll file module (depth + 1) slot true children scopes
        return scopes.addFunction file module slot function
      | .clauses functions => visitClauses file module (depth + 1) slot functions children scopes
      | .plain => visitAll file module (depth + 1) slot true children scopes

/-- Adds the scopes of nodes that follow each other; `isFirst` tells whether others went before. -/
def visitAll (file : DecompiledFile) (module : Module) (depth slot : Nat) (isFirst : Bool) :
    List SyntaxNode → FileScopes → Except Error FileScopes
  | [], scopes => .ok scopes
  | node :: nodes, scopes => do
    visitAll file module depth slot false nodes
      (← visit file module depth slot isFirst node scopes)

/-- Adds the scopes of nodes that are the bodies of functions, whatever the nodes are themselves. -/
def visitClauses (file : DecompiledFile) (module : Module) (depth slot : Nat) :
    List (Option UInt32) → List SyntaxNode → FileScopes → Except Error FileScopes
  | function :: functions, ⟨_, _, children⟩ :: nodes, scopes => do
    let scopes ← visitAll file module depth slot true children scopes
    visitClauses file module depth slot functions nodes
      (scopes.addFunction file module slot function)
  | _, _, scopes => .ok scopes

end

/-- The scopes of a file. -/
def ofFile (file : DecompiledFile) (module : Module) : Except Error FileScopes :=
  visitAll file module 0 0 true file.syntaxTrees {}

end FileScopes

end PortablePdb
