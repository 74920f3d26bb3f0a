import Std.Data.HashMap
import PortablePdb.Guid

namespace PortablePdb

/-- The heap of identifiers, for reading. Each takes 16 bytes, and is known by its number,
counted from one. -/
structure GuidHeap where
  data : Bytes
  deriving DecidableEq, Repr

namespace GuidHeap

/-- A heap is a whole number of identifiers. -/
def ofBytes (data : Bytes) : Except Error GuidHeap :=
  if data.size % 16 = 0 then .ok ⟨data⟩ else reject (.guidHeap data.size)

/-- The number of identifiers. -/
def size (heap : GuidHeap) : Nat :=
  heap.data.size / 16

/-- Whether there are no identifiers. -/
def isEmpty (heap : GuidHeap) : Bool :=
  heap.data.isEmpty

/-- The identifier with a number. -/
def guidAt (heap : GuidHeap) (index : Nat) : Except Error Guid :=
  if index = 0 then .ok Guid.nil
  else if heap.size < index then .error .outOfBounds
  else
    match Guid.ofBytes? (heap.data.extract ((index - 1) * 16) (index * 16)) with
    | some guid => .ok guid
    | none => .error .fault

/-- A heap under construction, with the number of each identifier in it. -/
structure Builder where
  data : Bytes
  lookup : Std.HashMap Guid UInt32

namespace Builder

/-- The heap without identifiers. -/
def empty : Builder :=
  ⟨#[], ∅⟩

instance : Inhabited Builder := ⟨empty⟩

/-- Adds an identifier unless the heap has it, and gives its number. -/
def add (value : Guid) : EStateM Error Builder UInt32 := do
  if value = Guid.nil then return 0
  if let some index := (← get).lookup[value]? then return index
  let number := (← get).data.size / 16 + 1
  if 0xFFFFFFFF < number then reject .guidHeapSize
  modify fun ⟨data, lookup⟩ => ⟨data ++ value.toBytes, lookup.insert value number.toUInt32⟩
  return number.toUInt32

/-- The number of bytes so far. -/
def size (builder : Builder) : Nat :=
  builder.data.size

/-- Whether the heap has no identifiers. -/
def isEmpty (builder : Builder) : Bool :=
  builder.data.isEmpty

/-- The finished heap. -/
def toBytes (builder : Builder) : Bytes :=
  builder.data

end Builder

end GuidHeap

end PortablePdb
