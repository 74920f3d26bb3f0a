import PortablePdb.Container.ContentId

namespace PortablePdb

/-- What comes of creating a pool of so many threads. Where it fails, the reason is given. -/
abbrev PoolCreation := UInt64 → Except String Unit

/-- The choices for a container. -/
structure GeneratorOptions where
  /-- Whether the parts of a namespace are directories of their own. -/
  nestedDirectories : Bool := true
  /-- Whether the source files are worked on by a pool of threads. -/
  parallel : Bool := true
  /-- The size of a pool for the run alone, instead of the pool that all runs share. -/
  threads : Option UInt64 := none
  /-- Whether an assembly without an id of its own is refused. -/
  requireCodeView : Bool := false
  /-- The content id, instead of that of the assembly. -/
  contentId : Option ContentId := none
  /-- A text to put in front of every source text, as comments. -/
  banner : Option String := none
  deriving DecidableEq, Repr, Inhabited

/-- Creates the pool of threads that is asked for, if the run needs one of its own. -/
def GeneratorOptions.createPool (options : GeneratorOptions) (newPool : PoolCreation) :
    Except Error Unit :=
  match options.parallel, options.threads with
  | true, some threads => (newPool threads).mapError .threadPool
  | _, _ => .ok ()

end PortablePdb
