import PortablePdb.Json.Decode

namespace PortablePdb

/-- What kind of construct a node is. -/
inductive NodeKind where
  | namespaceScope (name : String)
  | usingNamespace (name : String)
  | method
  | accessor
  | constructor
  | destructor
  | operator
  | lambda
  | anonymousMethod
  | property (hasExpressionBody : Bool)
  | indexer (hasExpressionBody : Bool)
  | queryFrom
  | queryLet
  | queryOrdering
  | querySelect
  | queryWhere
  /-- A group clause, with the functions of what is grouped and of the key. -/
  | queryGroup (projection key : Option UInt32)
  /-- A join clause, with the functions of its two keys. -/
  | queryJoin (outer inner : Option UInt32)
  | other
  deriving DecidableEq, Repr, Inhabited

namespace NodeKind

/-- Whether a node of the kind is a function body of its own. -/
def isMethodLike : NodeKind → Bool
  | .method | .accessor | .constructor | .destructor | .operator | .lambda | .anonymousMethod
  | .queryLet | .queryOrdering | .querySelect | .queryWhere => true
  | _ => false

/-- The tags of the kinds in JSON, in the order of their numbers. -/
def tags : List String :=
  ["namespace", "using", "method", "accessor", "constructor", "destructor", "operator", "lambda",
    "anonymous_method", "property", "indexer", "query_from", "query_let", "query_ordering",
    "query_select", "query_where", "query_group", "query_join", "other"]

/-- The tag of a kind and the fields beside it. -/
def toMembers : NodeKind → String × List (String × Json)
  | .namespaceScope name => ("namespace", [("name", .string name)])
  | .usingNamespace name => ("using", [("namespace", .string name)])
  | .method => ("method", [])
  | .accessor => ("accessor", [])
  | .constructor => ("constructor", [])
  | .destructor => ("destructor", [])
  | .operator => ("operator", [])
  | .lambda => ("lambda", [])
  | .anonymousMethod => ("anonymous_method", [])
  | .property body => ("property", [("expression_body", .bool body)])
  | .indexer body => ("indexer", [("expression_body", .bool body)])
  | .queryFrom => ("query_from", [])
  | .queryLet => ("query_let", [])
  | .queryOrdering => ("query_ordering", [])
  | .querySelect => ("query_select", [])
  | .queryWhere => ("query_where", [])
  | .queryGroup projection key =>
    ("query_group", [("projection", function projection), ("key", function key)])
  | .queryJoin outer inner => ("query_join", [("on", function outer), ("equals", function inner)])
  | .other => ("other", [])
where
  /-- A function or null. -/
  function : Option UInt32 → Json :=
    Json.ofOption fun n => .nat n.toNat

/-- The tag that a value stands for: its text, or the number of a tag. -/
def tagOf? : Json → Option String
  | .string tag => some tag
  | .int number => if 0 ≤ number then tags[number.toNat]? else none
  | _ => none

/-- The kind in the members of a node. Members that do not belong to the kind do not matter. -/
def ofMembers? (members : List (String × Json)) : Option NodeKind := do
  let node := Json.object members
  let tagged ← node.fields? ["kind"]
  match ← Json.required tagged "kind" tagOf? with
  | "namespace" =>
    let fields ← node.fields? ["name"]
    return .namespaceScope (← Json.required fields "name" Json.string?)
  | "using" =>
    let fields ← node.fields? ["namespace"]
    return .usingNamespace (← Json.required fields "namespace" Json.string?)
  | "method" => return .method
  | "accessor" => return .accessor
  | "constructor" => return .constructor
  | "destructor" => return .destructor
  | "operator" => return .operator
  | "lambda" => return .lambda
  | "anonymous_method" => return .anonymousMethod
  | "property" =>
    let fields ← node.fields? ["expression_body"]
    return .property (← Json.optional fields "expression_body" Json.bool? false)
  | "indexer" =>
    let fields ← node.fields? ["expression_body"]
    return .indexer (← Json.optional fields "expression_body" Json.bool? false)
  | "query_from" => return .queryFrom
  | "query_let" => return .queryLet
  | "query_ordering" => return .queryOrdering
  | "query_select" => return .querySelect
  | "query_where" => return .queryWhere
  | "query_group" =>
    let fields ← node.fields? ["projection", "key"]
    return .queryGroup (← function? fields "projection") (← function? fields "key")
  | "query_join" =>
    let fields ← node.fields? ["on", "equals"]
    return .queryJoin (← function? fields "on") (← function? fields "equals")
  | "other" => return .other
  | _ => none
where
  /-- A field that holds a function or null, or is missing. -/
  function? (fields : String → Option Json) (name : String) : Option (Option UInt32) :=
    Json.optional fields name (Json.nullable? Json.word32?) none

end NodeKind

/-- A node of a syntax tree, with the function that it holds. -/
structure SyntaxNode where
  kind : NodeKind
  function : Option UInt32 := none
  children : List SyntaxNode := []
  deriving Inhabited

namespace SyntaxNode

/-- The number of nodes of a tree. -/
def nodeCount : SyntaxNode → Nat
  | ⟨_, _, children⟩ => 1 + countAll children
where
  /-- The number of nodes of several trees. -/
  countAll : List SyntaxNode → Nat
    | [] => 0
    | node :: nodes => nodeCount node + countAll nodes

/-- The JSON form of a tree. The function is left out where there is none, and so are the children.
-/
def toJson : SyntaxNode → Json
  | ⟨kind, function, children⟩ =>
    let (tag, fields) := kind.toMembers
    .object <|
      [("kind", .string tag)] ++ fields ++
      (function.map fun n => ("function", Json.nat n.toNat)).toList ++
      if children.isEmpty then [] else [("children", .array (allToJson children))]
where
  /-- The JSON forms of several trees. -/
  allToJson : List SyntaxNode → List Json
    | [] => []
    | node :: nodes => toJson node :: allToJson nodes

mutual

/-- The tree that a value is the JSON form of. Members that do not matter have to be readable, too.
-/
def ofJson? : Json → Option SyntaxNode
  | .object members => do
    if !Json.membersAreReadable (members.filter fun member => member.1 ≠ "children") then none
    let fields ← (Json.object members).fields? ["function", "children"]
    let kind ← NodeKind.ofMembers? members
    let function ← Json.optional fields "function" (Json.nullable? Json.word32?) none
    return ⟨kind, function, ← childrenOf? members⟩
  | _ => none

/-- The children among the members of a node. -/
def childrenOf? : List (String × Json) → Option (List SyntaxNode)
  | [] => some []
  | (name, value) :: members =>
    if name = "children" then listOf? value else childrenOf? members

/-- The trees that an array holds. -/
def listOf? : Json → Option (List SyntaxNode)
  | .array items => allOf? items
  | _ => none

/-- The trees that several values are the JSON forms of. -/
def allOf? : List Json → Option (List SyntaxNode)
  | [] => some []
  | item :: items => do
    let node ← ofJson? item
    return node :: (← allOf? items)

end

end SyntaxNode

end PortablePdb
