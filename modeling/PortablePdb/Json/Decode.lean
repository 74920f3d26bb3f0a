import PortablePdb.Json.Basic

namespace PortablePdb.Json

/-- The fields of a record by name. A field must not be repeated, and an array must not be longer
than the list of fields. -/
def fields? (names : List String) : Json → Option (String → Option Json)
  | .object members =>
    if names.all fun name => members.countP (·.1 == name) ≤ 1 then
      some fun name => List.lookup name members
    else none
  | .array items =>
    if items.length ≤ names.length then some fun name => List.lookup name (names.zip items)
    else none
  | _ => none

/-- A field that has to be there. -/
def required {α : Type} (fields : String → Option Json) (name : String)
    (decode : Json → Option α) : Option α :=
  (fields name).bind decode

/-- A field with a default. -/
def optional {α : Type} (fields : String → Option Json) (name : String)
    (decode : Json → Option α) (default : α) : Option α :=
  match fields name with
  | some json => decode json
  | none => some default

/-- A value or null. -/
def nullable? {α : Type} (decode : Json → Option α) : Json → Option (Option α)
  | .null => some none
  | json => (decode json).map some

/-- A list of values. -/
def list? {α : Type} (decode : Json → Option α) : Json → Option (List α)
  | .array items => items.mapM decode
  | _ => none

/-- A truth value. -/
def bool? : Json → Option Bool
  | .bool value => some value
  | _ => none

/-- A text. -/
def string? : Json → Option String
  | .string text => some text
  | _ => none

/-- A whole number from zero up to a bound, which is excluded. -/
def natBelow? (bound : Nat) : Json → Option Nat
  | .int value => if 0 ≤ value && value < bound then some value.toNat else none
  | _ => none

/-- A number of 16 bits. -/
def word16? (json : Json) : Option UInt16 :=
  (natBelow? 0x10000 json).map (·.toUInt16)

/-- A number of 32 bits. -/
def word32? (json : Json) : Option UInt32 :=
  (natBelow? 0x100000000 json).map (·.toUInt32)

end PortablePdb.Json
