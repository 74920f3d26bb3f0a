import Std.Data.HashMap
import PortablePdb.Bytes.Reader

namespace PortablePdb

/-- The heap of strings, for reading. Each string ends at a zero byte, and is known by its
position. -/
structure StringHeap where
  data : Bytes
  deriving DecidableEq, Repr

namespace StringHeap

/-- A heap starts with the empty string. -/
def ofBytes (data : Bytes) : Except Error StringHeap :=
  if data[0]? = some 0 then .ok ⟨data⟩ else reject .stringsHeap

/-- The position of the first zero byte at or after a position, if there is one. -/
def endOf? (data : Bytes) (position : Nat) : Option Nat :=
  if h : position < data.size then
    if data[position] = 0 then some position else endOf? data (position + 1)
  else none
  termination_by data.size - position

/-- The string at a position. -/
def stringAt (heap : StringHeap) (index : Nat) : Except Error String :=
  if heap.data.size ≤ index then .error .outOfBounds
  else
    match endOf? heap.data index with
    | none => reject (.stringIndex index)
    | some stop =>
      match Bytes.toText? (heap.data.extract index stop) with
      | some text => .ok text
      | none => reject (.stringIndex index)

/-- A heap under construction, with the position of each string in it. -/
structure Builder where
  data : Bytes
  lookup : Std.HashMap String UInt32

namespace Builder

/-- The heap with the empty string only. -/
def empty : Builder :=
  ⟨#[0], ∅⟩

instance : Inhabited Builder := ⟨empty⟩

/-- Adds a string unless the heap has it, and gives its position. A string that contains a zero byte
would end there, and is refused. -/
def add (value : String) : EStateM Error Builder UInt32 := do
  if value.isEmpty then return 0
  if let some index := (← get).lookup[value]? then return index
  if (Bytes.ofText value).contains 0 then reject (.nulInString value)
  let position := (← get).data.size
  if 0xFFFFFFFF < position then reject .stringsHeapSize
  modify fun ⟨data, lookup⟩ =>
    ⟨(data ++ Bytes.ofText value).push 0, lookup.insert value position.toUInt32⟩
  return position.toUInt32

/-- The number of bytes so far. -/
def size (builder : Builder) : Nat :=
  builder.data.size

/-- Whether the heap has the empty string only. -/
def isEmpty (builder : Builder) : Bool :=
  builder.data.size == 1

/-- The finished heap, padded to a multiple of four bytes. -/
def toBytes (builder : Builder) : Bytes :=
  builder.data.pad4

end Builder

end StringHeap

end PortablePdb
