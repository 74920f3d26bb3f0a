import PortablePdb.Bytes.Reader

namespace PortablePdb.Image

/-- The 16-bit word at a position. -/
def word16? (data : Bytes) (position : Nat) : Option UInt16 :=
  (Reader.le16.evalAt data position).toOption

/-- The 32-bit word at a position. -/
def word32? (data : Bytes) (position : Nat) : Option UInt32 :=
  (Reader.le32.evalAt data position).toOption

/-- The 64-bit word at a position. -/
def word64? (data : Bytes) (position : Nat) : Option UInt64 :=
  (Reader.le64.evalAt data position).toOption

/-- Whether a range lies in the file. -/
def inFile (data : Bytes) (start size : Nat) : Bool :=
  start + size ≤ data.size

/-- Whether a range starts before the end of the file and lies in it. -/
def isReadable (data : Bytes) (start size : Nat) : Bool :=
  start < data.size && inFile data start size

/-- Whether a text in UTF-8 stands at a position; it goes up to a zero byte or to the end of the
file. -/
def isText (data : Bytes) (start : Nat) : Bool :=
  start < data.size &&
    (Bytes.toText? ((data.extract start data.size).takeWhile (· != 0))).isSome

end PortablePdb.Image
