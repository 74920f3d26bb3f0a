import PortablePdb.Bytes.Reader

namespace PortablePdb

/-- An identifier of 16 bytes, in stored order. -/
structure Guid where
  bytes : Vector UInt8 16
  deriving DecidableEq, Repr

namespace Guid

/-- The identifier of zeros, which stands for no identifier. -/
def nil : Guid :=
  ⟨Vector.replicate 16 0⟩

instance : Inhabited Guid := ⟨nil⟩

instance : Hashable Guid := ⟨fun guid => hash guid.bytes.toArray⟩

/-- The stored form. -/
def toBytes (guid : Guid) : Bytes :=
  guid.bytes.toArray

/-- The identifier with a stored form; there is one for every 16 bytes. -/
def ofBytes? (data : Bytes) : Option Guid :=
  if hsize : data.size = 16 then some ⟨⟨data, hsize⟩⟩ else none

/-- The identifier whose text has the given groups: a word of 32 bits, two of 16 bits, and eight
bytes. -/
def ofGroups (first : UInt32) (second third : UInt16) (rest : UInt64) : Guid :=
  let data :=
    Bytes.le32 first ++ Bytes.le16 second ++ Bytes.le16 third ++ Bytes.ofNatBE 8 rest.toNat
  ⟨⟨data, by simp [data, Bytes.le32, Bytes.le16]⟩⟩

/-- The usual text: five groups of digits in lower case, separated by hyphens. -/
def toText (guid : Guid) : String :=
  let group (start stop : Nat) := guid.toBytes.extract start stop
  "-".intercalate
    [Text.Hex.ofBytes (group 0 4).reverse, Text.Hex.ofBytes (group 4 6).reverse,
      Text.Hex.ofBytes (group 6 8).reverse, Text.Hex.ofBytes (group 8 10),
      Text.Hex.ofBytes (group 10 16)]

theorem size_toBytes (guid : Guid) : guid.toBytes.size = 16 :=
  guid.bytes.size_toArray

theorem ofBytes?_toBytes (guid : Guid) : ofBytes? guid.toBytes = some guid := by
  simp [ofBytes?, toBytes]

end Guid

/-- Reads the stored form of an identifier. -/
def Reader.guid : Reader Guid := do
  match Guid.ofBytes? (← Reader.bytes 16) with
  | some guid => return guid
  | none => throw .fault

end PortablePdb
