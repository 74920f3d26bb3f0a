namespace PortablePdb

/-- A JSON value. A number with a fraction or an exponent, and minus zero, are kept as text. -/
inductive Json where
  | null
  | bool (value : Bool)
  | int (value : Int)
  | decimal (text : String)
  | string (text : String)
  | array (items : List Json)
  | object (members : List (String × Json))
  /-- What has the form of a value but cannot be read. It may stand where it is not looked at. -/
  | unreadable
  deriving Inhabited, Repr

namespace Json

instance : Coe String Json := ⟨.string⟩
instance : Coe Bool Json := ⟨.bool⟩

/-- A natural number. -/
def nat (n : Nat) : Json :=
  .int n

/-- A value that may be missing, written as null then. -/
def ofOption {α : Type} (encode : α → Json) : Option α → Json
  | some value => encode value
  | none => .null

/-- A list of values. -/
def ofList {α : Type} (encode : α → Json) (values : List α) : Json :=
  .array (values.map encode)

mutual

/-- Whether a value can be read, with all its parts. -/
def isReadable : Json → Bool
  | array items => areReadable items
  | object members => membersAreReadable members
  | unreadable => false
  | _ => true

/-- Whether several values can be read. -/
def areReadable : List Json → Bool
  | [] => true
  | item :: items => isReadable item && areReadable items

/-- Whether the values of members can be read. -/
def membersAreReadable : List (String × Json) → Bool
  | [] => true
  | (_, value) :: members => isReadable value && membersAreReadable members

end

end Json

end PortablePdb
