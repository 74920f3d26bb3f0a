import PortablePdb.Digest.Sha256
import PortablePdb.Guid

namespace PortablePdb

/-- The id of a container: an identifier and a stamp. -/
structure ContentId where
  guid : Guid
  stamp : UInt32
  deriving DecidableEq, Repr

namespace ContentId

/-- The number of bytes of an id. -/
def size : Nat := 20

/-- The id of zeros. -/
def zero : ContentId :=
  ⟨Guid.nil, 0⟩

instance : Inhabited ContentId := ⟨zero⟩

/-- Whether an id is that of zeros. -/
def isZero (id : ContentId) : Bool :=
  id == zero

/-- The id derived from the bytes of a container: the start of their digest, with the marks of a
random identifier and of a stamp that is no date. -/
def ofContent (container : Bytes) : ContentId :=
  let digest := Sha256.digest container
  let marked := Vector.ofFn fun i : Fin 16 =>
    let byte := digest[i.val]
    if i = 7 then byte &&& 0x0F ||| 0x40 else if i = 8 then byte &&& 0x3F ||| 0x80 else byte
  ⟨⟨marked⟩, (Bytes.natLE (digest.toArray.extract 16 20)).toUInt32 ||| 0x80000000⟩

/-- The stored form. -/
def toBytes (id : ContentId) : Bytes :=
  id.guid.toBytes ++ Bytes.le32 id.stamp

/-- Reads an id. -/
def read : Reader ContentId := do
  return ⟨← Reader.guid, ← Reader.le32⟩

/-- The id at the start of some bytes. -/
def ofBytes (data : Bytes) : Except Error ContentId :=
  read.eval data

/-- The text of an id: that of its identifier, a hyphen, and eight digits for the stamp. -/
def toText (id : ContentId) : String :=
  s!"{id.guid.toText}-{Text.Hex.padded 8 id.stamp.toNat}"

theorem size_toBytes (id : ContentId) : id.toBytes.size = size := by
  simp [toBytes, Guid.size_toBytes, Bytes.le32, size]

end ContentId

end PortablePdb
