import PortablePdb.CustomInfo.Blob
import PortablePdb.Decompiled.File
import PortablePdb.Module.Basic

namespace PortablePdb

/-- A state machine: the method that runs it, the method that starts it, and the blob of its hoisted
locals. -/
structure StateMachine where
  moveNext : Token
  kickoff : Token
  hoisted : Bytes
  deriving DecidableEq, Repr

/-- What debug data tell about the state machine of a function, if it has one, and about the
stepping of an asynchronous function, as a blob that belongs to a method. -/
structure FunctionRecords where
  machine : Option StateMachine := none
  stepping : Option (Token × Bytes) := none
  deriving DecidableEq, Repr, Inhabited

namespace FunctionRecords

/-- The largest number of hoisted locals: the size of their blob, eight bytes for each, has to have
a compressed form. -/
def maxHoistedLocals : UInt32 := 0x1FFFFFFF / 8

/-- The state machine that a method runs for a function. All hoisted locals are in scope in the
whole code of the method. -/
def machineOf (function : DecompiledFunction) (module : Module) (moveNext : Token) :
    Except Error StateMachine := do
  if maxHoistedLocals < function.hoistedLocals then
    reject (.hoistedLocals function.hoistedLocals maxHoistedLocals)
  let codeSize := (((module.method? moveNext).bind (·.code)).map (·.size)).getD 0
  let scopes := List.replicate function.hoistedLocals.toNat ⟨0, codeSize⟩
  return ⟨moveNext, function.method, CustomInfo.encodeHoisted scopes⟩

/-- The records of a function. -/
def ofFunction (function : DecompiledFunction) (module : Module) :
    Except Error FunctionRecords := do
  let machine ← function.moveNext.mapM (machineOf function module)
  let parent := function.bodyMethod
  let stepping ←
    if function.isAsync then
      let blob ← CustomInfo.encodeStepping (function.stepping.getD {}) parent
      pure (some (parent, blob))
    else pure none
  return ⟨machine, stepping⟩

/-- Whether there is nothing to tell about a function. -/
def isEmpty (records : FunctionRecords) : Bool :=
  records.machine.isNone && records.stepping.isNone

end FunctionRecords

end PortablePdb
