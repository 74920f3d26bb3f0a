import PortablePdb.Bytes.Basic
import PortablePdb.Error

namespace PortablePdb

/-- A reader of a value from fixed data; its state is the position in the data. -/
abbrev Reader := ReaderT Bytes (EStateM Error Nat)

namespace Reader

/-- Runs a reader on data, from a position. -/
def runAt {α : Type} (reader : Reader α) (data : Bytes) (position : Nat) :
    EStateM.Result Error Nat α :=
  reader.run data |>.run position

/-- The value that a reader finds at a position of the data. -/
def evalAt {α : Type} (reader : Reader α) (data : Bytes) (position : Nat) : Except Error α :=
  match reader.runAt data position with
  | .ok value _ => .ok value
  | .error error _ => .error error

/-- The value that a reader finds at the start of the data. -/
def eval {α : Type} (reader : Reader α) (data : Bytes) : Except Error α :=
  reader.evalAt data 0

/-- The position in the data. -/
def position : Reader Nat :=
  get

/-- The number of bytes from the position on. -/
def remaining : Reader Nat := do
  return (← read).size - (← get)

/-- Whether bytes are left. -/
def hasMore : Reader Bool := do
  return (← get) < (← read).size

/-- Moves to a position, which may be the end of the data. -/
def seek (position : Nat) : Reader Unit := do
  if (← read).size < position then throw .outOfBounds
  set position

/-- Moves forward by a number of bytes. -/
def advance (count : Nat) : Reader Unit := do
  seek ((← get) + count)

/-- Moves forward to a multiple of an alignment. -/
def align (alignment : Nat) : Reader Unit := do
  let position ← get
  advance ((alignment - position % alignment) % alignment)

/-- The next byte, without moving past it. -/
def peek : Reader UInt8 := do
  match (← read)[← get]? with
  | some byte => return byte
  | none => throw .outOfBounds

/-- A number of bytes. -/
def bytes (count : Nat) : Reader Bytes := do
  let start ← get
  advance count
  return (← read).extract start (start + count)

/-- An unsigned number of `width` bytes, least significant first. -/
def natLE (width : Nat) : Reader Nat :=
  return (← bytes width).natLE

/-- An unsigned number of `width` bytes, most significant first. -/
def natBE (width : Nat) : Reader Nat :=
  return (← bytes width).natBE

/-- A byte. -/
def u8 : Reader UInt8 :=
  return (← natLE 1).toUInt8

/-- A 16-bit word, low byte first. -/
def le16 : Reader UInt16 :=
  return (← natLE 2).toUInt16

/-- A 32-bit word, low byte first. -/
def le32 : Reader UInt32 :=
  return (← natLE 4).toUInt32

/-- A 64-bit word, low byte first. -/
def le64 : Reader UInt64 :=
  return (← natLE 8).toUInt64

/-- Reads items up to the end of the data. A step reads one item, or something between items, and
passes on what the next step has to know; every step moves forward. -/
def collect {σ α : Type} (step : σ → Reader (Option α × σ)) (state : σ) : Reader (List α) :=
  fun data position =>
    if position < data.size then
      match (step state).runAt data position with
      | .ok (item?, state) next =>
        if position < next then
          match collect step state data next with
          | .ok items stop => .ok (item?.toList ++ items) stop
          | .error error stop => .error error stop
        else .error .fault next
      | .error error next => .error error next
    else .ok [] position
  termination_by data position => data.size - position

/-- Reads items up to the end of the data, each in the same way. -/
def items {α : Type} (item : Reader α) : Reader (List α) :=
  collect (fun () => return (some (← item), ())) ()

end Reader

/-- Passes the result of a computation that reads nothing on to a reader. -/
def Reader.lift {α : Type} : Except Error α → Reader α
  | .ok value => pure value
  | .error error => throw error

end PortablePdb
