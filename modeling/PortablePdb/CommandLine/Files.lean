import PortablePdb.CommandLine.Run

namespace PortablePdb.CommandLine

/-- The files in a directory, each with the names on the way to it. -/
abbrev Files := List (List String × Bytes)

namespace Files

/-- The most bytes that a name on a way may have. -/
def maxName : Nat := 255

/-- The most bytes that a path may have. -/
def maxPath : Nat := 4095

/-- Whether the names on a way lead to a directory. -/
def hasDirectory (files : Files) (way : List String) : Bool :=
  way.isEmpty || files.any fun (other, _) => way.isPrefixOf other && way.length < other.length

/-- The names on the way that a path describes, from those on the way so far. A pair of dots leads
back from a directory. -/
def follow (files : Files) : (back : List String) → List String → Option (List String)
  | back, [] => some back.reverse
  | back, "" :: names => files.follow back names
  | back, "." :: names => files.follow back names
  | back, ".." :: names =>
    match back with
    | [] => none
    | _ :: front =>
      if files.hasDirectory back.reverse then files.follow front names else none
  | back, name :: names =>
    if maxName < name.utf8ByteSize then none else files.follow (name :: back) names

/-- The names on the way to the file that a path leads to, if the path can lead to a file. -/
def wayOf? (files : Files) (path : String) : Option (List String) := do
  if maxPath < path.utf8ByteSize then none
  let names := (Text.split '/' path.toList).map String.ofList
  match names.head?, names.getLast? with
  | some first, some last =>
    if first = "" ∨ last = "" ∨ last = "." ∨ last = ".." then none else files.follow [] names
  | _, _ => none

/-- The bytes of the file that a path leads to. -/
def contents (files : Files) : Contents := fun path => do
  files.lookup (← files.wayOf? path)

/-- The files after one more is written; nothing if there is no place for it. -/
def write (files : Files) (path : String) (data : Bytes) : Option Files := do
  let way ← files.wayOf? path
  if files.hasDirectory way.dropLast && !files.hasDirectory way then
    return (way, data) :: files.filter (·.1 != way)
  else none

/-- The files in the directory itself. -/
def ofList (files : List (String × Bytes)) : Files :=
  files.map fun (path, data) => ((Text.split '/' path.toList).map String.ofList, data)

/-- How a run ends, and the files after it. -/
def run (files : Files) (arguments : List String) : Outcome × Files :=
  match Request.ofArguments? arguments with
  | none => (.usage, files)
  | some .version => (.ofOutput versionText, files)
  | some (.help verb) => (.ofOutput (helpText verb), files)
  | some (.run command json) =>
    match command.answer files.contents json with
    | .error failure => (.ofFailure failure, files)
    | .ok ⟨output, none⟩ => (.ofOutput output, files)
    | .ok ⟨output, some (path, data)⟩ =>
      match files.write path data with
      | some files => (.ofOutput output, files)
      | none => (.ofFailure ⟨.write path, .file⟩, files)

end Files

end PortablePdb.CommandLine
