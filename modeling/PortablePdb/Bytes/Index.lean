import PortablePdb.Bytes.Reader

namespace PortablePdb.Index

/-- The number of bytes of a wide or narrow index. The column decides, so that a wide index may be
small. -/
def width (wide : Bool) : Nat :=
  if wide then 4 else 2

/-- The bytes of an index. -/
def encode (wide : Bool) (value : UInt32) : Except Error Bytes :=
  if wide then .ok (Bytes.le32 value)
  else if value ≤ 0xFFFF then .ok (Bytes.le16 value.toUInt16)
  else reject (.narrowIndex value)

/-- Reads an index. -/
def read (wide : Bool) : Reader UInt32 := do
  if wide then Reader.le32 else return (← Reader.le16).toUInt32

end PortablePdb.Index

namespace PortablePdb.Bytes

/-- Replaces the bytes at a position by others of the same number. -/
def overwrite (data : Bytes) (position : Nat) (patch : Bytes) : Except Error Bytes :=
  if position + patch.size ≤ data.size then
    .ok (data.extract 0 position ++ patch ++ data.extract (position + patch.size))
  else .error .outOfBounds

theorem size_overwrite {data patch result : Bytes} {position : Nat}
    (hwritten : overwrite data position patch = .ok result) : result.size = data.size := by
  simp only [overwrite] at hwritten
  split at hwritten
  · cases hwritten
    simp only [Array.size_append, Array.size_extract]
    omega
  · cases hwritten

end PortablePdb.Bytes

namespace PortablePdb.Index

/-- An index written over the bytes at a position, and the position after it. -/
def overwrite (wide : Bool) (value : UInt32) (data : Bytes) (position : Nat) :
    Except Error (Bytes × Nat) := do
  let form ← encode wide value
  return (← data.overwrite position form, position + form.size)

end PortablePdb.Index
