import PortablePdb.Image.Words

namespace PortablePdb.Image

/-- The number of bytes in front of the data of a certificate. -/
def certificateHeaderSize : Nat := 8

/-- The number of bytes of a certificate at a position, without padding. Its revision and its type
have to be known ones. -/
def certificateSize? (data : Bytes) (position : Nat) : Option Nat := do
  let length ← word32? data position
  let revision ← word16? data (position + 4)
  let type ← word16? data (position + 6)
  if revision ≠ 0x100 && revision ≠ 0x200 || type = 0 || 4 < type then none
  let size := max length.toNat certificateHeaderSize
  if inFile data position size then return size else none

/-- Whether the certificates from a position up to another one can be read; `fuel` bounds their
number. -/
def areCertificates (data : Bytes) (stop : Nat) : (fuel : Nat) → (position : Nat) → Bool
  | 0, _ => false
  | fuel + 1, position =>
    stop ≤ position ||
      match certificateSize? data position with
      | none => false
      | some size => areCertificates data stop fuel ((position + size + 7) / 8 * 8)

/-- Whether a range of the file holds certificates that can be read. -/
def isCertificateTable (data : Bytes) (start size : Nat) : Bool :=
  inFile data start size && areCertificates data (start + size) (size + 1) start

end PortablePdb.Image
