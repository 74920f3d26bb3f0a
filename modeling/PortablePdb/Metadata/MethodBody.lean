import PortablePdb.Bytes.Reader

namespace PortablePdb

/-- What the header of a method body tells. -/
structure MethodBody where
  codeSize : Nat
  headerSize : Nat
  localSignature : Token := ⟨0⟩
  maxStack : Nat := 8
  isFat : Bool := false
  initializesLocals : Bool := false
  hasSections : Bool := false
  deriving DecidableEq, Repr

namespace MethodBody

/-- Reads a tiny header, after which the code has to follow. -/
def readTiny : Reader MethodBody := do
  let available ← Reader.remaining
  let codeSize := (← Reader.u8).toNat / 4
  if available < codeSize + 1 then throw .outOfBounds
  return { codeSize, headerSize := 1 }

/-- Reads a fat header, after which the code has to follow. -/
def readFat : Reader MethodBody := do
  let available ← Reader.remaining
  if available < 12 then throw .outOfBounds
  let flags := (← Reader.le16).toNat
  let headerSize := flags / 0x1000 * 4
  if headerSize < 12 then reject (.bodyHeaderSize headerSize)
  let maxStack := (← Reader.le16).toNat
  let codeSize := (← Reader.le32).toNat
  let localSignature ← Reader.le32
  if available < codeSize + headerSize then throw .outOfBounds
  return {
    codeSize, headerSize, maxStack
    localSignature := ⟨localSignature⟩
    isFat := true
    initializesLocals := flags.testBit 4
    hasSections := flags.testBit 3 }

/-- Reads the header of a body. The low bits of the first byte tell its form. -/
def read : Reader MethodBody := do
  if !(← Reader.hasMore) then reject .emptyBody
  let first ← Reader.peek
  match first % 4 with
  | 2 => readTiny
  | 3 => readFat
  | _ => reject (.bodyFormat first)

/-- The number of bytes of header and code. -/
def size (body : MethodBody) : Nat :=
  body.codeSize + body.headerSize

/-- The row of the signature of the local variables, or zero. -/
def localSignatureRow (body : MethodBody) : UInt32 :=
  if body.localSignature.isTable .standAloneSig then body.localSignature.row else 0

end MethodBody

end PortablePdb
