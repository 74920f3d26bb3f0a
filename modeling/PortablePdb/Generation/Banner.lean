import PortablePdb.SequencePoints.Basic
import PortablePdb.Text.Split

namespace PortablePdb

namespace Banner

/-- A line of a banner as a comment, without the carriage returns at its end. -/
def comment (line : List Char) : List Char :=
  let text := (line.reverse.dropWhile (· == '\r')).reverse
  ['/', '/', ' '] ++ text ++ ['\n']

/-- The lines of a banner. -/
def lines (banner : String) : List (List Char) :=
  Text.split '\n' banner.toList

/-- The comments of a banner. -/
def header (banner : String) : String :=
  String.ofList ((lines banner).flatMap comment)

/-- The number of lines that a banner takes, as far as a word can tell. -/
def lineCount (banner : String) : UInt32 :=
  (min (lines banner).length 0xFFFFFFFF).toUInt32

end Banner

namespace SequencePoint

/-- A line moved down, but not past the last line that a word can tell. -/
def shiftLine (line shift : UInt32) : UInt32 :=
  (min (line.toNat + shift.toNat) 0xFFFFFFFF).toUInt32

/-- A point whose range is empty covers no text, and is made hidden; other visible points move down
by a number of lines. -/
def prepare (shift : UInt32) (point : SequencePoint) : SequencePoint :=
  if point.isHidden then point
  else if point.IsNonempty then
    { point with
      startLine := shiftLine point.startLine shift
      endLine := shiftLine point.endLine shift }
  else hidden point.offset

/-- Whether a point claims to be visible but covers no text. -/
def isDegenerate (point : SequencePoint) : Bool :=
  !point.isHidden && !decide point.IsNonempty

end SequencePoint

end PortablePdb
