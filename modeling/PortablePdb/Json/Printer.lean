import PortablePdb.Json.Basic
import PortablePdb.Text.Hex

namespace PortablePdb.Json

/-- The characters that stand for one in a string: controls, quotes and backslashes are escaped. -/
def escape (c : Char) : List Char :=
  match c with
  | '"' => ['\\', '"']
  | '\\' => ['\\', '\\']
  | '\x08' => ['\\', 'b']
  | '\x0c' => ['\\', 'f']
  | '\n' => ['\\', 'n']
  | '\r' => ['\\', 'r']
  | '\t' => ['\\', 't']
  | c => if c.toNat < 0x20 then "\\u".toList ++ (Text.Hex.padded 4 c.toNat).toList else [c]

/-- The text of a string, with its quotes. -/
def quote (text : String) : String :=
  if text.all fun c => 0x20 ≤ c.toNat && c != '"' && c != '\\' then "\"" ++ text ++ "\""
  else "\"" ++ String.ofList (text.toList.flatMap escape) ++ "\""

/-- The text of a value that has no parts. What cannot be read is left out as null. -/
def renderAtom : Json → String
  | null => "null"
  | bool value => if value then "true" else "false"
  | int value => toString value
  | decimal text => text
  | string text => quote text
  | array _ => "[]"
  | object _ => "\x7b\x7d"
  | unreadable => "null"

mutual

/-- Adds the compact text of a value to a text. -/
def addCompact (out : String) : Json → String
  | array items => (addCompactItems (out ++ "[") true items) ++ "]"
  | object members => (addCompactMembers (out ++ "\x7b") true members) ++ "\x7d"
  | null => out ++ "null"
  | bool value => out ++ renderAtom (bool value)
  | int value => out ++ renderAtom (int value)
  | decimal text => out ++ text
  | string text => out ++ quote text
  | unreadable => out ++ renderAtom unreadable

/-- Adds the items of an array, with a comma before each but the first. -/
def addCompactItems (out : String) (first : Bool) : List Json → String
  | [] => out
  | item :: rest =>
    addCompactItems (addCompact (if first then out else out ++ ",") item) false rest

/-- Adds the members of an object, with a comma before each but the first. -/
def addCompactMembers (out : String) (first : Bool) : List (String × Json) → String
  | [] => out
  | (name, value) :: rest =>
    addCompactMembers (addCompact ((if first then out else out ++ ",") ++ quote name ++ ":") value)
      false rest

end

/-- The compact text of a value. -/
def compact (json : Json) : String :=
  addCompact "" json

/-- A new line, indented by two blanks for each level. -/
def newLine (level : Nat) : String :=
  String.ofList ('\n' :: List.replicate (2 * level) ' ')

mutual

/-- Adds the text of a value, whose parts stand on lines of their own. -/
def addPretty (level : Nat) (out : String) : Json → String
  | array [] => out ++ "[]"
  | array (item :: items) =>
    addPrettyItems (level + 1) (out ++ "[") true (item :: items) ++ newLine level ++ "]"
  | object [] => out ++ "\x7b\x7d"
  | object (member :: members) =>
    addPrettyMembers (level + 1) (out ++ "\x7b") true (member :: members) ++ newLine level ++ "\x7d"
  | null => out ++ "null"
  | bool value => out ++ renderAtom (bool value)
  | int value => out ++ renderAtom (int value)
  | decimal text => out ++ text
  | string text => out ++ quote text
  | unreadable => out ++ renderAtom unreadable

/-- Adds the items of an array, each on a line of its own. -/
def addPrettyItems (level : Nat) (out : String) (first : Bool) : List Json → String
  | [] => out
  | item :: rest =>
    let separator := if first then newLine level else "," ++ newLine level
    addPrettyItems level (addPretty level (out ++ separator) item) false rest

/-- Adds the members of an object, each on a line of its own. -/
def addPrettyMembers (level : Nat) (out : String) (first : Bool) :
    List (String × Json) → String
  | [] => out
  | (name, value) :: rest =>
    let separator := if first then newLine level else "," ++ newLine level
    addPrettyMembers level (addPretty level (out ++ separator ++ quote name ++ ": ") value) false
      rest

end

/-- The text of a value over several lines. -/
def pretty (json : Json) : String :=
  addPretty 0 "" json

end PortablePdb.Json
