import PortablePdb.Text.Split

namespace PortablePdb.CommandLine.Path

/-- The name of the file that a path leads to; the path itself, if it leads to none. -/
def fileName (path : String) : String :=
  let parts := (Text.split '/' path.toList).filter fun part => part ≠ [] ∧ part ≠ ['.']
  match parts.getLast? with
  | some name => if name = ['.', '.'] then path else String.ofList name
  | none => path

/-- A file name without its extension, which starts at the last dot. A dot at the start of a name
starts no extension. -/
def stem (name : List Char) : List Char :=
  let front := Text.join '.' (Text.split '.' name).dropLast
  if front = [] then name else front

/-- Whether a name consists of two dots, or of two dots and an extension. -/
def isParentWithExtension (name : List Char) : Bool :=
  name.take 2 == ['.', '.'] && !(name.drop 2).contains '.'

/-- The path beside a file, with another extension. Where only two dots would stand before it, they
are taken for the directory above, which has no extension. -/
def withExtension (path extension : String) : String :=
  let reversed := path.toList.reverse
  let name := (reversed.takeWhile (· != '/')).reverse
  let directory := (reversed.dropWhile (· != '/')).reverse
  if isParentWithExtension name then String.ofList (directory ++ ['.', '.'])
  else String.ofList (directory ++ stem name) ++ "." ++ extension

end PortablePdb.CommandLine.Path
