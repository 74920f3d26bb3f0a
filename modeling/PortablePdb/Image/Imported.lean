import PortablePdb.Image.Loader

namespace PortablePdb.Image

/-- The record of a library from which functions are imported. -/
structure ImportedLibrary where
  lookup : UInt32
  name : UInt32
  addresses : UInt32
  deriving DecidableEq, Repr

/-- The number of bytes of the record of a library. -/
def ImportedLibrary.encodedSize : Nat := 20

/-- The record of a library at a position. -/
def importedLibrary? (data : Bytes) (position : Nat) : Option ImportedLibrary := do
  if !inFile data position ImportedLibrary.encodedSize then none
  return ⟨← word32? data position, ← word32? data (position + 12), ← word32? data (position + 16)⟩

namespace Loader

/-- Whether an item of a table of functions can be read. It has the highest bit set and holds a
number, or it leads to a hint and a name; one that leads out of all sections does not matter. -/
def isImportedFunction (loader : Loader) (item : Nat) : Bool :=
  item.testBit (8 * loader.pointerSize - 1) ||
    match loader.offset? (item % 0x80000000) with
    | none => true
    | some position => (word16? loader.data position).isSome && isText loader.data (position + 2)

/-- Whether a table of functions can be read. -/
def isImportTable (loader : Loader) (position : Nat) : Bool :=
  (loader.pointers? position).any fun items => items.all loader.isImportedFunction

/-- Whether the name of a library and its functions can be read. The second table takes the place of
the first one if that lies in no section. -/
def isImportedLibrary (loader : Loader) (library : ImportedLibrary) : Bool :=
  let addresses? := loader.offset? library.addresses.toNat
  let lookup? := loader.offset? library.lookup.toNat
  (loader.offset? library.name.toNat).any (isText loader.data) &&
    (lookup?.or addresses?).all loader.isImportTable &&
    (addresses?.bind loader.pointers?).isSome

/-- Whether the records of libraries from a position on can be read. The first one without a name or
without a table to fill in ends them; `fuel` bounds their number. -/
def areImportedLibraries (loader : Loader) : (fuel : Nat) → (position : Nat) → Bool
  | 0, _ => false
  | fuel + 1, position =>
    match importedLibrary? loader.data position with
    | none => false
    | some library =>
      library.name == 0 || library.addresses == 0 ||
        loader.isImportedLibrary library &&
          areImportedLibraries loader fuel (position + ImportedLibrary.encodedSize)

/-- Whether the directory of imported functions at a position can be read. -/
def areImports (loader : Loader) (position : Nat) : Bool :=
  loader.areImportedLibraries (loader.data.size + 1) position

end Loader

end PortablePdb.Image
