import PortablePdb.Image.Loader

namespace PortablePdb.Image

/-- The pointers of the directory of data of threads. -/
structure ThreadData where
  start : Nat
  stop : Nat
  index : Nat
  callbacks : Nat
  deriving DecidableEq, Repr

namespace Loader

/-- The pointers of the directory of data of threads at a position. Two words follow them. -/
def threadData? (loader : Loader) (position : Nat) : Option ThreadData := do
  let size := loader.pointerSize
  if !inFile loader.data position (4 * size + 8) then none
  return ⟨← loader.pointer? position, ← loader.pointer? (position + size),
    ← loader.pointer? (position + 2 * size), ← loader.pointer? (position + 3 * size)⟩

/-- Whether the directory of data of threads at a position can be read. A pointer of zero leads to
nothing. -/
def isThreadData (loader : Loader) (position : Nat) : Bool :=
  (loader.threadData? position).any fun threads =>
    let values :=
      threads.start == 0 || threads.stop == 0 ||
        threads.start ≤ threads.stop &&
          (loader.absoluteOffset? threads.start).any fun offset =>
            isReadable loader.data offset (threads.stop - threads.start)
    let index := threads.index == 0 || loader.optional.imageBase.toNat ≤ threads.index
    let callbacks :=
      threads.callbacks == 0 ||
        ((loader.absoluteOffset? threads.callbacks).bind loader.pointers?).any fun callbacks =>
          callbacks.all fun callback => (loader.absoluteOffset? callback).isSome
    values && index && callbacks

end Loader

end PortablePdb.Image
