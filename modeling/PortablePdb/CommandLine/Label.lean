import PortablePdb.Metadata.Token

namespace PortablePdb.CommandLine

/-- A line with a label. The texts of all such lines start in the same column. -/
def labelled (label text : String) : String :=
  String.ofList ((label.toList ++ [':']).rightpad 17 ' ') ++ text

/-- A number in upper-case hexadecimal digits, at least so many. -/
def upperHex (digits n : Nat) : String :=
  (Text.Hex.padded digits n).toUpper

/-- A quotient with one decimal place. A half goes to the even neighbour. -/
def tenths (n unit : Nat) : String :=
  let quotient := 10 * n / unit
  let rest := 2 * (10 * n % unit)
  let up := unit < rest || rest == unit && quotient % 2 == 1
  let rounded := if up then quotient + 1 else quotient
  s!"{rounded / 10}.{rounded % 10}"

/-- A number of bytes, in the largest unit that it fills. -/
def sizeText (size : Nat) : String :=
  if 0x100000 ≤ size then tenths size 0x100000 ++ " MiB"
  else if 0x400 ≤ size then tenths size 0x400 ++ " KiB"
  else s!"{size} B"

end PortablePdb.CommandLine
