import PortablePdb.Metadata.Token

namespace PortablePdb

/-- The range of code in which a hoisted local is in scope. -/
structure HoistedScope where
  start : UInt32
  length : UInt32
  deriving DecidableEq, Repr, Inhabited

/-- A place where an asynchronous method waits: where it yields, and where in which method it
resumes. The null token stands for the method itself. -/
structure Await where
  yieldOffset : UInt32
  resumeOffset : UInt32
  resumeMethod : Token := ⟨0⟩
  deriving DecidableEq, Repr, Inhabited

/-- How to step through an asynchronous method. -/
structure AsyncStepping where
  catchHandler : Option UInt32 := none
  awaits : List Await := []
  deriving DecidableEq, Repr, Inhabited

end PortablePdb
