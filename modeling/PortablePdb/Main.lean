import PortablePdb.CommandLine.Run

namespace PortablePdb.CommandLine

/-- The bytes of a file, if it can be read. -/
def readFile (path : String) : IO (Option Bytes) := do
  try
    let data ← IO.FS.readBinFile path
    return some data.data
  catch _ => return none

/-- Writes a file, and tells whether that succeeded. -/
def writeFile (path : String) (data : Bytes) : IO Bool := do
  try
    IO.FS.writeBinFile path ⟨data⟩
    return true
  catch _ => return false

/-- Prints the end of a run, and gives its code. -/
def conclude (outcome : Outcome) : IO UInt32 := do
  IO.print outcome.output
  if let some failure := outcome.failure then
    IO.eprintln s!"Error: {failure.step.message}\n\nCaused by:\n    {failure.cause.message}"
  return outcome.code.toUInt32

/-- Runs a command. -/
def runCommand (command : Command) (json : Bool) : IO UInt32 := do
  let files ← command.inputs.mapM fun path => return (path, ← readFile path)
  let contents : Contents := fun path => (List.lookup path files).join
  match command.answer contents json with
  | .error failure => conclude (.ofFailure failure)
  | .ok ⟨output, none⟩ => conclude (.ofOutput output)
  | .ok ⟨output, some (path, data)⟩ =>
    if ← writeFile path data then conclude (.ofOutput output)
    else conclude (.ofFailure ⟨.write path, .file⟩)

end PortablePdb.CommandLine

open PortablePdb.CommandLine in
/-- Runs a command line. -/
def main (arguments : List String) : IO UInt32 :=
  match Request.ofArguments? arguments with
  | some (.run command json) => runCommand command json
  | some (.help verb) => conclude (.ofOutput (helpText verb))
  | some .version => conclude (.ofOutput versionText)
  | none => do
    IO.eprint (helpText none)
    conclude .usage
