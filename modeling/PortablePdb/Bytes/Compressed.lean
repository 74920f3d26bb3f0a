import PortablePdb.Bytes.Reader

namespace PortablePdb.Compressed

/-- The largest unsigned number with a compressed form. -/
def maxUInt : Nat := 0x1FFFFFFF

/-- The number of bytes in which a number is written. -/
def size (value : Nat) : Nat :=
  if value < 0x80 then 1 else if value < 0x4000 then 2 else 4

/-- The compressed form of a number, in the fewest bytes. They are one, two or four, the most
significant first, and the leading bits `0`, `10` or `110` tell which. -/
def encodeUInt (value : Nat) : Except Error Bytes :=
  if value < 0x80 then .ok (Bytes.ofNatBE 1 value)
  else if value < 0x4000 then .ok (Bytes.ofNatBE 2 (0x8000 + value))
  else if value ≤ maxUInt then .ok (Bytes.ofNatBE 4 (0xC0000000 + value))
  else reject (.compressedRange value)

/-- Whether a signed number lies below a bound on either side of zero. -/
def fits (bound : Nat) (value : Int) : Bool :=
  -(bound : Int) ≤ value && value < bound

/-- A signed number within a bound, as twice its remainder and its sign in the lowest bit. -/
def rotate (bound : Nat) (value : Int) : Nat :=
  2 * (value % bound).toNat + if value < 0 then 1 else 0

/-- The signed number whose rotation is given. -/
def unrotate (bound : Nat) (code : Nat) : Int :=
  if code % 2 = 1 then ((code / 2 : Nat) : Int) - bound else (code / 2 : Nat)

/-- The compressed form of a signed number, in the fewest bytes. -/
def encodeInt (value : Int) : Except Error Bytes :=
  if fits 0x40 value then .ok (Bytes.ofNatBE 1 (rotate 0x40 value))
  else if fits 0x2000 value then .ok (Bytes.ofNatBE 2 (0x8000 + rotate 0x2000 value))
  else if fits 0x10000000 value then
    .ok (Bytes.ofNatBE 4 (0xC0000000 + rotate 0x10000000 value))
  else reject (.compressedSignedRange value)

/-- Reads an unsigned number in any of its three widths. -/
def readUInt : Reader Nat := do
  let lead ← Reader.u8
  if lead < 0x80 then return lead.toNat
  if lead < 0xC0 then
    let low ← Reader.u8
    return (lead.toNat - 0x80) * 0x100 + low.toNat
  if lead < 0xE0 then
    let high ← Reader.u8
    let middle ← Reader.u8
    let low ← Reader.u8
    return (lead.toNat - 0xC0) * 0x1000000 + high.toNat * 0x10000 + middle.toNat * 0x100 +
      low.toNat
  reject (.compressedLead lead)

/-- The bound of the signed numbers whose compressed form has some width. -/
def signedBound : (width : Nat) → Nat
  | 1 => 0x40
  | 2 => 0x2000
  | _ => 0x10000000

/-- Reads a signed number; the width of its form tells within which bound it lies. -/
def readInt : Reader Int := do
  let start ← Reader.position
  let code ← readUInt
  let stop ← Reader.position
  return unrotate (signedBound (stop - start)) code

end PortablePdb.Compressed
