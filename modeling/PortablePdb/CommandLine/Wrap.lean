import PortablePdb.Text.Split
import PortablePdb.Text.Width

namespace PortablePdb.CommandLine.Wrap

/-- The room at the end of a line that is too small for another word. -/
def smallRoom : Nat := 2

/-- Lines that are complete, the last one first, and a line that is not: its characters, the last
one first, and its width. -/
structure Page where
  done : List (List Char) := []
  line : List Char := []
  width : Nat := 0
  deriving DecidableEq, Repr

namespace Page

/-- Completes the line. -/
def finish (page : Page) : Page where
  done := page.line.reverse :: page.done

/-- The width of the blank that stands before the next word. -/
def blank (page : Page) : Nat :=
  if page.line.isEmpty then 0 else 1

/-- Adds a word to the line. -/
def add (page : Page) (word : List Char) : Page where
  done := page.done
  line := word.reverse ++ List.replicate page.blank ' ' ++ page.line
  width := page.width + page.blank + Text.width word

/-- Completes the line if little room is left in it. -/
def settle (limit : Nat) (page : Page) : Page :=
  if limit - smallRoom < page.width then page.finish else page

/-- All lines, where the one that is not complete counts only if it has characters. -/
def lines (page : Page) : List (List Char) :=
  (if page.line.isEmpty then page else page.finish).done.reverse

end Page

/-- The part of a word that fits into a room, and the rest. -/
def breakWord (room : Nat) : List Char → List Char × List Char
  | [] => ([], [])
  | c :: word =>
    if room < Text.width [c] then ([], c :: word)
    else
      let (front, rest) := breakWord (room - Text.width [c]) word
      (c :: front, rest)

/-- Adds words to a page whose lines have a limit; `fuel` bounds the number of steps, and there are
at most two for each character and each word. -/
def addWords (limit : Nat) : (fuel : Nat) → List (List Char) → Page → Page
  | 0, _, page => page
  | _, [], page => page
  | fuel + 1, word :: words, page =>
    let room := limit - page.width - page.blank
    if page.width + page.blank + Text.width word ≤ limit then
      addWords limit fuel words ((page.add word).settle limit)
    else if !page.line.isEmpty && room ≤ smallRoom then
      addWords limit fuel (word :: words) page.finish
    else if limit < Text.width word then
      let (front, rest) := breakWord room word
      addWords limit fuel (rest :: words) (page.add front).finish
    else addWords limit fuel words ((page.finish.add word).settle limit)

/-- The lines into which a line is broken. One that fits is left as it is. -/
def wrap (limit : Nat) (line : List Char) : List (List Char) :=
  if Text.width line ≤ limit then [line]
  else (addWords limit (2 * line.length + 2) (Text.split ' ' line) {}).lines

theorem breakWord_append (room : Nat) (word : List Char) :
    (breakWord room word).1 ++ (breakWord room word).2 = word := by
  induction word generalizing room with
  | nil => rfl
  | cons c word ih =>
    by_cases hroom : room < Text.width [c]
    · simp [breakWord, hroom]
    · simp [breakWord, hroom, ih]

theorem wrap_of_width_le {limit : Nat} {line : List Char} (hwidth : Text.width line ≤ limit) :
    wrap limit line = [line] := by
  simp [wrap, hwidth]

end PortablePdb.CommandLine.Wrap
