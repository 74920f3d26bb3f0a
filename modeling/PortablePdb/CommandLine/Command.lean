namespace PortablePdb.CommandLine

/-- The choices for a container that is generated into a file. -/
structure GenerateChoices where
  /-- The path of the assembly. -/
  assembly : String
  /-- The path of the manifest of its decompiled files. -/
  manifest : String
  /-- The path of the container, if it is not to stand beside the assembly. -/
  output : Option String := none
  flat : Bool := false
  /-- Whether no threads are to be used. -/
  sequential : Bool := false
  threads : Option UInt64 := none
  requireCodeView : Bool := false
  banner : Option String := none
  deriving DecidableEq, Repr

/-- What the program can do with files. -/
inductive Command where
  /-- Writes the container of an assembly. -/
  | generate (choices : GenerateChoices)
  /-- Shows a container, with or without the points of its methods. -/
  | dump (path : String) (points : Bool)
  /-- Shows what is known of an assembly. -/
  | info (path : String)
  deriving DecidableEq, Repr

/-- The commands, each of which has a help page. -/
inductive Verb where
  | generate
  | dump
  | info
  | help
  deriving DecidableEq, Repr

/-- The word for a command. -/
def Verb.name : Verb → String
  | .generate => "generate"
  | .dump => "dump"
  | .info => "info"
  | .help => "help"

/-- The command that a word stands for. -/
def Verb.ofName? (name : String) : Option Verb :=
  [generate, dump, info, help].find? (·.name == name)

theorem Verb.ofName?_name (verb : Verb) : Verb.ofName? verb.name = some verb := by
  cases verb <;> decide

/-- What a command line asks for. -/
inductive Request where
  /-- A command, whose answer is JSON or a text for people. -/
  | run (command : Command) (json : Bool)
  /-- The help page of a command, or of the program. -/
  | help (verb : Option Verb)
  | version
  deriving DecidableEq, Repr

end PortablePdb.CommandLine
