import PortablePdb.Decompiled.PointMap
import PortablePdb.Decompiled.Syntax
import PortablePdb.Decompiled.Values

namespace PortablePdb

/-- A function of a decompiled file. -/
structure DecompiledFunction where
  id : UInt32
  method : Token
  /-- The method that runs the state machine of the function. -/
  moveNext : Option Token := none
  isAsync : Bool := false
  stepping : Option AsyncStepping := none
  hoistedLocals : UInt32 := 0
  deriving DecidableEq, Repr, Inhabited

namespace DecompiledFunction

/-- The method that holds the code of a function. -/
def bodyMethod (function : DecompiledFunction) : Token :=
  function.moveNext.getD function.method

/-- Methods and stepping are left out where there are none. -/
def toJson (function : DecompiledFunction) : Json :=
  .object <|
    [("id", .nat function.id.toNat), ("method", function.method.toJson)] ++
    (function.moveNext.map fun token => ("move_next", token.toJson)).toList ++
    [("is_async", .bool function.isAsync)] ++
    (function.stepping.map fun stepping => ("async_info", stepping.toJson)).toList ++
    [("hoisted_locals", .nat function.hoistedLocals.toNat)]

/-- The names of the fields of a function. -/
def fieldNames : List String :=
  ["id", "method", "move_next", "is_async", "async_info", "hoisted_locals"]

/-- Only the id and the method have to be there. -/
def ofJson? (json : Json) : Option DecompiledFunction := do
  let fields ← json.fields? fieldNames
  return {
    id := ← Json.required fields "id" Json.word32?
    method := ← Json.required fields "method" Token.ofJson?
    moveNext := ← Json.optional fields "move_next" (Json.nullable? Token.ofJson?) none
    isAsync := ← Json.optional fields "is_async" Json.bool? false
    stepping := ← Json.optional fields "async_info" (Json.nullable? AsyncStepping.ofJson?) none
    hoistedLocals := ← Json.optional fields "hoisted_locals" Json.word32? 0 }

end DecompiledFunction

/-- The sequence points of a file, or why there are none. -/
inductive PointTable where
  | points (map : PointMap)
  | omitted (reason : String)
  deriving Inhabited

namespace PointTable

/-- The points of a function, if the file has an entry for it. -/
def get? (function : UInt32) : PointTable → Option (List SequencePoint)
  | .points map => map.get? function
  | .omitted _ => none

/-- The name of a function as a member of an object, which is its number. -/
def functionName (function : UInt32) : String :=
  toString function.toNat

/-- The function with a name: a number without sign and leading zeros. -/
def functionOf? (name : String) : Option UInt32 := do
  let function ← (Text.Numeral.read? 10 0x100000000 name.toList).map (·.toUInt32)
  if functionName function = name then return function else none

/-- An object with one member, which tells the kind of table. -/
def toJson : PointTable → Json
  | .points map =>
    .object [("points", .object <| map.entries.map fun entry =>
      (functionName entry.1, Json.ofList SequencePoint.toJson entry.2))]
  | .omitted reason => .object [("omitted", .string reason)]

/-- The points of functions in the members of an object. -/
def mapOf? : Json → Option PointMap
  | .object members => do
    let entries ← members.mapM fun (name, value) => do
      return (← functionOf? name, ← Json.list? SequencePoint.ofJson? value)
    return .ofList entries
  | _ => none

/-- The table in an object with one member. -/
def ofJson? : Json → Option PointTable
  | .object [("points", value)] => (mapOf? value).map .points
  | .object [("omitted", .string reason)] => some (.omitted reason)
  | _ => none

end PointTable

/-- A decompiled file. -/
structure DecompiledFile where
  source : String := ""
  syntaxTrees : List SyntaxNode := []
  functions : List DecompiledFunction := []
  points : PointTable := .points .empty
  deriving Inhabited

namespace DecompiledFile

/-- Whether nothing could be decompiled. -/
def isEmpty (file : DecompiledFile) : Bool :=
  file.syntaxTrees.isEmpty

/-- The first function with an id. -/
def function? (file : DecompiledFile) (id : UInt32) : Option DecompiledFunction :=
  file.functions.find? (·.id == id)

/-- All fields are written. -/
def toJson (file : DecompiledFile) : Json :=
  .object
    [("source", .string file.source),
      ("syntax_tree", Json.ofList SyntaxNode.toJson file.syntaxTrees),
      ("functions", Json.ofList DecompiledFunction.toJson file.functions),
      ("sequence_points", file.points.toJson)]

/-- Only the source has to be there. -/
def ofJson? (json : Json) : Option DecompiledFile := do
  let fields ← json.fields? ["source", "syntax_tree", "functions", "sequence_points"]
  return {
    source := ← Json.required fields "source" Json.string?
    syntaxTrees := ← Json.optional fields "syntax_tree" SyntaxNode.listOf? []
    functions := ← Json.optional fields "functions" (Json.list? DecompiledFunction.ofJson?) []
    points := ← Json.optional fields "sequence_points" PointTable.ofJson? (.points .empty) }

end DecompiledFile

end PortablePdb
