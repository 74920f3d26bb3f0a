import PortablePdb.Text.Alphanumeric
import PortablePdb.Text.Blank
import PortablePdb.Text.Split

namespace PortablePdb.VirtualPath

/-- The longest part of a path, in characters. -/
def maxSegment : Nat := 255

/-- Names that some systems take for devices. -/
def deviceNames : List String :=
  ["CON", "PRN", "AUX", "NUL", "COM1", "COM2", "COM3", "COM4", "COM5", "COM6", "COM7", "COM8",
    "COM9", "LPT1", "LPT2", "LPT3", "LPT4", "LPT5", "LPT6", "LPT7", "LPT8", "LPT9"]

/-- The part of a segment before its first point. -/
def stem (segment : List Char) : List Char :=
  segment.takeWhile (· != '.')

/-- Whether a segment stands for a device, in either case and with any extension. -/
def isDevice (segment : List Char) : Bool :=
  deviceNames.any fun name => name.toList == (stem segment).map Char.toUpper

/-- The text before the first mark, unless the text starts with one. -/
def cutAt (mark : Char) (text : List Char) : List Char :=
  match text.takeWhile (· != mark) with
  | [] => text
  | before => before

/-- The part of a name that a path is made of: neither qualifiers after a colon nor the arity after
a backquote, and no blanks at the ends. -/
def significant (text : List Char) : List Char :=
  Text.trim (cutAt '\x60' (Text.trim (cutAt ':' text)))

/-- Characters that a path keeps. -/
def isKept (c : Char) : Bool :=
  Text.isAlphanumeric c || c == '-' || c == '_'

/-- The segments of a cleaned name, of which the last one is under construction. -/
structure Segments where
  done : Array (List Char) := #[]
  current : List Char := []
  /-- The number of characters seen since the current segment was begun. -/
  seen : Nat := 0

/-- One character more. A point ends a segment or stays, unless the segment is empty or has a point
last; every other character that is not kept becomes a hyphen. -/
def Segments.add (separateAtPoints : Bool) (segments : Segments) (c : Char) : Segments :=
  let seen := segments.seen + 1
  let push (c : Char) : Segments :=
    if seen ≤ maxSegment then { segments with current := segments.current ++ [c], seen }
    else { segments with seen }
  if isKept c then push c
  else if c = '.' && !segments.current.isEmpty && segments.current.getLast? != some '.' then
    if separateAtPoints then { done := segments.done.push segments.current }
    else { segments with current := segments.current ++ ['.'], seen }
  else push '-'

/-- All segments; one that is empty at the end counts only if it is the only one. -/
def Segments.toList (segments : Segments) : List (List Char) :=
  if segments.current.isEmpty && !segments.done.isEmpty then segments.done.toList
  else segments.done.toList ++ [segments.current]

/-- The segments of a text. -/
def segmentsOf (separateAtPoints : Bool) (text : List Char) : List (List Char) :=
  (text.foldl (Segments.add separateAtPoints) {}).toList

/-- An empty segment becomes a hyphen, and one that stands for a device gets a mark at its end. -/
def escape (segment : List Char) : List Char :=
  if segment.isEmpty then ['-']
  else if isDevice segment then segment ++ ['_']
  else segment

/-- A name as a part of a path, or as several parts where points separate. -/
def clean (separateAtPoints : Bool) (text : List Char) : List Char :=
  Text.join '/' ((segmentsOf separateAtPoints (significant text)).map escape)

/-- The path of the document of a type. -/
def ofType (nested : Bool) (namespaceName typeName : String) : String :=
  let file := clean false typeName.toList ++ ['.', 'c', 's']
  if namespaceName.isEmpty then String.ofList file
  else String.ofList (clean nested namespaceName.toList ++ '/' :: file)

end PortablePdb.VirtualPath
