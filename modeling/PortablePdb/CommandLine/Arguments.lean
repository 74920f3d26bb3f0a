import PortablePdb.CommandLine.Command
import PortablePdb.Text.Numeral

namespace PortablePdb.CommandLine

/-- The options of all commands. -/
inductive Key where
  | json
  | verbose
  | help
  | version
  | decompiled
  | output
  | flat
  | sequential
  | threads
  | requireCodeView
  | banner
  | points
  deriving DecidableEq, Repr

/-- A number of threads. -/
def readThreads? (value : String) : Option UInt64 :=
  (Text.Numeral.read? 10 0x10000000000000000 value.toList).map Nat.toUInt64

namespace Key

/-- The long form of an option, without its hyphens. -/
def long : Key → String
  | json => "json"
  | verbose => "verbose"
  | help => "help"
  | version => "version"
  | decompiled => "decompiled"
  | output => "output"
  | flat => "flat"
  | sequential => "sequential"
  | threads => "threads"
  | requireCodeView => "require-codeview"
  | banner => "banner"
  | points => "points"

/-- The short form of an option, without its hyphen. -/
def short? : Key → Option Char
  | verbose => some 'v'
  | help => some 'h'
  | version => some 'V'
  | output => some 'o'
  | _ => none

/-- Whether an option has a value. -/
def hasValue : Key → Bool
  | decompiled | output | threads | banner => true
  | _ => false

/-- Whether an option may have a value. Paths are not empty, and a number of threads is a numeral
below two to the 64. -/
def admits : Key → String → Bool
  | decompiled, value | output, value => !value.isEmpty
  | threads, value => (readThreads? value).isSome
  | banner, _ => true
  | _, _ => false

/-- The options that stand before a command. -/
def ofProgram : List Key :=
  [json, verbose, help, version]

/-- The options of a command. -/
def ofVerb : Verb → List Key
  | .generate =>
    [decompiled, output, flat, sequential, threads, requireCodeView, banner, json, verbose, help]
  | .dump => [points, json, verbose, help]
  | .info => [json, verbose, help]
  | .help => []

end Key

/-- Why the reading of a command line stops before its end. -/
inductive Stop where
  /-- The command line has no meaning. -/
  | usage
  /-- A help page is asked for. -/
  | help
  /-- The version is asked for. -/
  | version
  deriving DecidableEq, Repr

/-- The options and the path that a command was given. -/
structure Given where
  flags : List Key := []
  values : List (Key × String) := []
  path : Option String := none
  deriving DecidableEq, Repr

namespace Given

/-- Adds an option without a value. Only the one for more messages may be repeated. -/
def addFlag (given : Given) (key : Key) : Except Stop Given :=
  match key with
  | .help => .error .help
  | .version => .error .version
  | key =>
    if key ≠ .verbose ∧ key ∈ given.flags then .error .usage
    else .ok { given with flags := key :: given.flags }

/-- Adds an option with its value. -/
def addValue (given : Given) (key : Key) (value : String) : Except Stop Given :=
  if key.admits value && (given.values.lookup key).isNone then
    .ok { given with values := (key, value) :: given.values }
  else .error .usage

/-- Adds the path, of which there is only one. -/
def addPath (given : Given) (path : String) : Except Stop Given :=
  if path.isEmpty || given.path.isSome then .error .usage
  else .ok { given with path := some path }

/-- Adds a group of short options. An option that still waits for its value comes with the
result. -/
def addGroup (keys : List Key) (given : Given) : List Char → Except Stop (Given × Option Key)
  | [] => .ok (given, none)
  | c :: cs =>
    match keys.find? (·.short? == some c) with
    | none => .error .usage
    | some key =>
      if key.hasValue then
        match cs with
        | [] => .ok (given, some key)
        | '=' :: value => return (← given.addValue key (String.ofList value), none)
        | value => return (← given.addValue key (String.ofList value), none)
      else do addGroup keys (← given.addFlag key) cs

/-- Adds a long option, given without its hyphens. An option that still waits for its value comes
with the result. -/
def addLong (keys : List Key) (given : Given) (text : List Char) :
    Except Stop (Given × Option Key) :=
  let name := text.takeWhile (· != '=')
  match keys.find? (·.long == String.ofList name), text.dropWhile (· != '=') with
  | none, _ => .error .usage
  | some key, [] =>
    if key.hasValue then .ok (given, some key) else return (← given.addFlag key, none)
  | some key, _ :: value =>
    if key.hasValue then return (← given.addValue key (String.ofList value), none)
    else .error .usage

/-- Whether an argument stands for options, so that it is not the value of one. -/
def isOption (argument : List Char) : Bool :=
  match argument with
  | '-' :: _ :: _ => true
  | _ => false

/-- Adds an argument that stands for options. -/
def addOption (keys : List Key) (given : Given) (argument : List Char) :
    Except Stop (Given × Option Key) :=
  match argument with
  | '-' :: '-' :: text => given.addLong keys text
  | _ :: cs => given.addGroup keys cs
  | [] => .error .usage

/-- Reads the arguments of a command. After a lone pair of hyphens all of them are paths. -/
def read (keys : List Key) (given : Given) : List String → Except Stop Given
  | [] => .ok given
  | "--" :: paths => paths.foldlM addPath given
  | argument :: rest =>
    if isOption argument.toList then do
      match ← given.addOption keys argument.toList, rest with
      | (given, none), rest => given.read keys rest
      | (_, some _), [] => .error .usage
      | (given, some key), value :: rest =>
        if isOption value.toList then .error .usage
        else (← given.addValue key value).read keys rest
    else do (← given.addPath argument).read keys rest

/-- The command that the options and the path make up, if none is missing and none contradicts
another one. -/
def command? (given : Given) : Verb → Option Command
  | .generate => do
    let assembly ← given.path
    let manifest ← given.values.lookup .decompiled
    let threads := given.values.lookup .threads
    if threads.isSome && given.flags.contains .sequential then none
    return .generate {
      assembly, manifest
      output := given.values.lookup .output
      flat := given.flags.contains .flat
      sequential := given.flags.contains .sequential
      threads := threads.bind readThreads?
      requireCodeView := given.flags.contains .requireCodeView
      banner := given.values.lookup .banner }
  | .dump => given.path.map (.dump · (given.flags.contains .points))
  | .info => given.path.map .info
  | .help => none

end Given

namespace Request

/-- The help page that is asked for by name. -/
def ofTopics : List String → Except Stop Request
  | [] => .ok (.help none)
  | [name] =>
    match Verb.ofName? name with
    | some verb => .ok (.help (some verb))
    | none => .error .usage
  | _ => .error .usage

/-- What the arguments after a command ask for. -/
def ofVerb (flags : List Key) (verb : Verb) (arguments : List String) : Except Stop Request :=
  match Given.read (Key.ofVerb verb) {} arguments with
  | .error .help => .ok (.help (some verb))
  | .error stop => .error stop
  | .ok given =>
    match given.command? verb with
    | some command => .ok (.run command ((given.flags ++ flags).contains .json))
    | none => .error .usage

/-- What a command line asks for, when some of its options have been read. -/
def ofRest (given : Given) : List String → Except Stop Request
  | [] => .error .usage
  | argument :: rest =>
    match Verb.ofName? argument with
    | some .help => ofTopics rest
    | some verb => ofVerb given.flags verb rest
    | none =>
      if argument ≠ "--" ∧ Given.isOption argument.toList then do
        ofRest (← given.addOption Key.ofProgram argument.toList).1 rest
      else .error .usage

/-- What a command line asks for; nothing, if it has no meaning. -/
def ofArguments? (arguments : List String) : Option Request :=
  match ofRest {} arguments with
  | .ok request => some request
  | .error .help => some (.help none)
  | .error .version => some .version
  | .error .usage => none

end Request

end PortablePdb.CommandLine
