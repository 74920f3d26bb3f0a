import PortablePdb.Bytes.Compressed
import PortablePdb.SequencePoints.Basic

namespace PortablePdb.SequencePoints

/-- Where the last visible point starts. -/
abbrev Start := UInt32 × UInt16

/-- The difference of two lines, which has to fit a signed word. -/
def lineDelta (current previous : UInt32) : Except Error Int :=
  let delta := (current.toNat : Int) - previous.toNat
  if -0x80000000 ≤ delta && delta < 0x80000000 then .ok delta else reject (.lineDelta delta)

/-- The form of an offset, relative to that of the point before. -/
def encodeOffset (previous : Option UInt32) (offset : UInt32) : Except Error Bytes :=
  match previous with
  | none => Compressed.encodeUInt offset.toNat
  | some previous =>
    if previous < offset then Compressed.encodeUInt (offset.toNat - previous.toNat)
    else reject (.pointOrder offset previous)

/-- The form of the extent of a visible point. A range within a line has to be non-empty, so that
its column count differs from the mark of a hidden point. -/
def encodeExtent (point : SequencePoint) : Except Error Bytes := do
  if point.endLine < point.startLine then
    reject (.pointLines point.offset point.endLine point.startLine)
  let lines := point.endLine.toNat - point.startLine.toNat
  let columns := (point.endColumn.toNat : Int) - point.startColumn.toNat
  let lineForm ← Compressed.encodeUInt lines
  if lines = 0 then
    if columns ≤ 0 then reject (.pointSpan point.offset point.startLine)
    return lineForm ++ (← Compressed.encodeUInt columns.toNat)
  else return lineForm ++ (← Compressed.encodeInt columns)

/-- The form of the start of a visible point, relative to that of the last one. -/
def encodeStart (previous : Option Start) (point : SequencePoint) : Except Error Bytes := do
  match previous with
  | none =>
    return (← Compressed.encodeUInt point.startLine.toNat) ++
      (← Compressed.encodeUInt point.startColumn.toNat)
  | some (line, column) =>
    return (← Compressed.encodeInt (← lineDelta point.startLine line)) ++
      (← Compressed.encodeInt ((point.startColumn.toNat : Int) - column.toNat))

/-- The forms of points that follow others. -/
def encodeFrom (offset : Option UInt32) (start : Option Start) :
    List SequencePoint → Except Error Bytes
  | [] => .ok #[]
  | point :: rest => do
    let offsetForm ← encodeOffset offset point.offset
    if point.isHidden then
      return offsetForm ++ #[0, 0] ++ (← encodeFrom (some point.offset) start rest)
    else
      let extentForm ← encodeExtent point
      let startForm ← encodeStart start point
      let next := some (point.startLine, point.startColumn)
      return offsetForm ++ extentForm ++ startForm ++
        (← encodeFrom (some point.offset) next rest)

/-- The blob of a method's points; a method without points has none. After the row of the local
signature, each point tells how far it is from the one before: its offset, the extent of its range,
and its start relative to that of the last visible point. -/
def encode (localSignature : UInt32) (points : List SequencePoint) :
    Except Error (Option Bytes) := do
  if points.isEmpty then return none
  let head ← Compressed.encodeUInt localSignature.toNat
  return some (head ++ (← encodeFrom none none points))

/-- What the points read so far mean for the next one. -/
structure Cursor where
  offset : UInt32 := 0
  document : UInt32 := 0
  start : Option (Int × Int) := none
  /-- Whether a point was read: only then an offset that stays marks a change of document. -/
  hasPoint : Bool := false

/-- The point with positions computed from differences, if they are in range. -/
def point? (offset document : UInt32) (startLine startColumn : Int) (lines : Nat) (columns : Int) :
    Option SequencePoint :=
  let endLine := startLine + lines
  let endColumn := startColumn + columns
  let isLine (line : Int) := 0 ≤ line && line < 0x100000000
  let isColumn (column : Int) := 0 ≤ column && column < 0x10000
  if isLine startLine && isLine endLine && isColumn startColumn && isColumn endColumn then
    some
      { offset, document
        startLine := startLine.toNat.toUInt32, startColumn := startColumn.toNat.toUInt16
        endLine := endLine.toNat.toUInt32, endColumn := endColumn.toNat.toUInt16 }
  else none

/-- Reads how many columns a range extends over; only a range of several lines may end in a column
before its first. -/
def readColumns (lines : Nat) : Reader Int :=
  if lines = 0 then Int.ofNat <$> Compressed.readUInt else Compressed.readInt

/-- Reads the start of a range, which is relative to that of the last visible point. -/
def readStart : (previous : Option (Int × Int)) → Reader (Int × Int)
  | none => return (Int.ofNat (← Compressed.readUInt), Int.ofNat (← Compressed.readUInt))
  | some (line, column) =>
    return (line + (← Compressed.readInt), column + (← Compressed.readInt))

/-- The point with the range that starts at `start`, and the cursor after it. -/
def place (cursor : Cursor) (offset : UInt32) (start : Int × Int) (lines : Nat) (columns : Int) :
    Except Error (SequencePoint × Cursor) :=
  match point? offset cursor.document start.1 start.2 lines columns with
  | some point => .ok (point, { cursor with offset, start := some start, hasPoint := true })
  | none => reject (.pointRange offset)

/-- Reads the range of a point at an offset; an empty range marks a hidden point. -/
def readRange (cursor : Cursor) (offset : UInt32) : Reader (SequencePoint × Cursor) := do
  let lines ← Compressed.readUInt
  let columns ← readColumns lines
  if lines = 0 && columns = 0 then
    let point := { SequencePoint.hidden offset with document := cursor.document }
    return (point, { cursor with offset, hasPoint := true })
  let start ← readStart cursor.start
  Reader.lift (place cursor offset start lines columns)

/-- Reads a point or a change of document. -/
def readPoint (cursor : Cursor) : Reader (Option SequencePoint × Cursor) := do
  let offsetDelta ← Compressed.readUInt
  if offsetDelta = 0 && cursor.hasPoint then
    let document ← Compressed.readUInt
    return (none, { cursor with document := document.toUInt32 })
  let offset := cursor.offset.toNat + offsetDelta
  if 0xFFFFFFFF < offset then reject .pointOffset
  let (point, cursor) ← readRange cursor offset.toUInt32
  return (some point, cursor)

/-- Reads the points of a method. The blob tells the document of the first points only where points
of several documents are allowed. -/
def read (hasInitialDocument : Bool) : Reader SequencePoints := do
  if ← Reader.hasMore then
    let localSignature := (← Compressed.readUInt).toUInt32
    let initialDocument ←
      if hasInitialDocument then pure (some (← Compressed.readUInt).toUInt32) else pure none
    let points ← Reader.collect readPoint {}
    return { localSignature, initialDocument, points }
  else return {}

/-- The points that a blob holds. -/
def decode (blob : Bytes) (hasInitialDocument : Bool) : Except Error SequencePoints :=
  (read hasInitialDocument).eval blob

end PortablePdb.SequencePoints
