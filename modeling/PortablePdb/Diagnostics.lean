import PortablePdb.Metadata.Token

namespace PortablePdb

/-- How bad it is. -/
inductive Severity where
  | info
  | warning
  | error
  deriving DecidableEq, Repr, Inhabited

namespace Severity

/-- The name of a severity. -/
def name : Severity → String
  | .info => "Info"
  | .warning => "Warning"
  | .error => "Error"

/-- The short form that stands in front of a diagnostic. -/
def label : Severity → String
  | .info => "INFO"
  | .warning => "WARN"
  | .error => "ERROR"

end Severity

/-- What a diagnostic is about. -/
inductive Category where
  | methodBody
  | duplicateMethod
  | sequencePoints
  | decompiler
  | contentId
  | general
  deriving DecidableEq, Repr, Inhabited

/-- The name of a category. -/
def Category.name : Category → String
  | .methodBody => "MethodBody"
  | .duplicateMethod => "DuplicateMethod"
  | .sequencePoints => "SequencePoints"
  | .decompiler => "Decompiler"
  | .contentId => "ContentId"
  | .general => "General"

/-- A message, with the token and the file that it is about. -/
structure Diagnostic where
  severity : Severity
  category : Category
  message : String
  token : Option Token := none
  file : Option String := none
  deriving DecidableEq, Repr, Inhabited

namespace Diagnostic

/-- The line that shows a diagnostic. -/
def toText (diagnostic : Diagnostic) : String :=
  s!"[{diagnostic.severity.label}] {diagnostic.category.name}: {diagnostic.message}" ++
    (diagnostic.token.map fun token => s!" (token: {token})").getD "" ++
    (diagnostic.file.map fun file => s!" (file: {file})").getD ""

end Diagnostic

namespace Diagnostics

/-- The number of diagnostics of a severity. -/
def count (severity : Severity) (diagnostics : List Diagnostic) : Nat :=
  diagnostics.countP (·.severity == severity)

/-- The diagnostics of a category. -/
def ofCategory (category : Category) (diagnostics : List Diagnostic) : List Diagnostic :=
  diagnostics.filter (·.category == category)

/-- A line with the numbers of errors and warnings, and a line for each of these. -/
def summary (diagnostics : List Diagnostic) : String :=
  let shown := diagnostics.filter (·.severity != .info)
  s!"Diagnostics: {count .error diagnostics} error(s), {count .warning diagnostics} warning(s)\n" ++
    String.join (shown.map fun diagnostic => s!"  {diagnostic.toText}\n")

end Diagnostics

end PortablePdb
