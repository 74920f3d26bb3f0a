import PortablePdb.Image.Words

namespace PortablePdb.Image.ToolRecord

/-- The mark before the list. -/
def startMark : UInt32 := 0x536E6144

/-- The mark after the list. -/
def endMark : UInt32 := 0x68636952

/-- The number of bytes between the first header and the list's place. -/
def origin : Nat := 0x40

/-- The position of the first end mark, and the key that follows it. -/
def end? (stub : Bytes) : Option (Nat × UInt32) :=
  (List.range (stub.size - 7)).findSome? fun position => do
    if (← word32? stub position) ≠ endMark then none
    return (position, ← word32? stub (position + 4))

/-- The position after the first start mark that is mixed with a key. -/
def start? (stub : Bytes) (key : UInt32) : Option Nat :=
  ((List.range (stub.size - 3)).find? fun position =>
    word32? stub position == some (startMark ^^^ key)).map (· + 4)

/-- The words of a list without the padding in front, which consists of zeros and so of copies of
the key. A list of nothing else has no padding. -/
def withoutPadding (key : UInt32) (words : List (Option UInt32)) : List (Option UInt32) :=
  match words.dropWhile (· == some key) with
  | [] => words
  | entries => entries

/-- Whether the bytes of a list are whole words, two for each tool. -/
def isList (key : UInt32) (list : Bytes) : Bool :=
  let words := (List.range (list.size / 4)).map fun i => word32? list (4 * i)
  list.size % 4 == 0 && (withoutPadding key words).length % 2 == 0

/-- Whether the bytes before the file header hold no record, or one that can be read. The words of a
record, its start mark included, are mixed with the key that stands after its end mark. -/
def isReadable (stub : Bytes) : Bool :=
  match end? stub with
  | none => true
  | some (stop, key) =>
    match start? stub key with
    | none => false
    | some start => start < stop && isList key (stub.extract start stop)

end PortablePdb.Image.ToolRecord
