import PortablePdb.Image.Loadable

namespace PortablePdb

open Image

/-- An executable image. -/
structure Image where
  data : Bytes
  is64Bit : Bool
  sections : List Section
  optional : OptionalHeader
  deriving DecidableEq, Repr

namespace Image

/-- The image in a file. It has to have a directory for the header of its managed part. -/
def ofBytes (data : Bytes) : Except Error Image := do
  if data.isEmpty then throw .empty
  match (headers? data).filter (isLoadable data) with
  | none => throw .image
  | some headers =>
    match headers.optional with
    | none => reject .noOptionalHeader
    | some optional =>
      if (optional.directory? clrDirectory).isNone then reject .noClrDirectory
      return ⟨data, optional.is64Bit, headers.sections, optional⟩

/-- The directory with a number, unless its address or its size is zero. -/
def usableDirectory? (image : Image) (number : Nat) : Option Directory :=
  image.optional.directories[number]?.filter fun directory =>
    directory.address ≠ 0 && directory.size ≠ 0

/-- The directory of the header of the managed part. -/
def clrDirectoryOf (image : Image) : Except Error Directory :=
  match image.usableDirectory? clrDirectory with
  | some directory => .ok directory
  | none => reject .noClrDirectory

/-- A range of bytes of the file. -/
def slice (image : Image) (start size : Nat) : Except Error Bytes :=
  if start + size ≤ image.data.size then .ok (image.data.extract start (start + size))
  else .error .outOfBounds

/-- The position in the file of an address, by the sections in order. -/
def offsetIn (address : Nat) : List Section → Except Error Nat
  | [] => reject (.unmappedAddress address)
  | s :: rest =>
    let stop := s.virtualAddress.toNat + s.virtualSize.toNat
    if 0xFFFFFFFF < stop then reject (.sectionOverflow s.virtualAddress s.virtualSize)
    else if s.virtualAddress.toNat ≤ address && address < stop then
      .ok (address - s.virtualAddress.toNat + s.rawPointer.toNat)
    else offsetIn address rest

/-- The position in the file of an address. -/
def addressToOffset (image : Image) (address : Nat) : Except Error Nat :=
  offsetIn address image.sections

/-- The address of a position in the file, by the sections in order. -/
def addressIn (offset : Nat) : List Section → Except Error Nat
  | [] => reject (.unmappedOffset offset)
  | s :: rest =>
    let start := s.rawPointer.toNat
    if start ≤ offset && offset < start + s.rawSize.toNat then
      .ok (offset - start + s.virtualAddress.toNat)
    else addressIn offset rest

/-- The address of a position in the file. -/
def offsetToAddress (image : Image) (offset : Nat) : Except Error Nat :=
  addressIn offset image.sections

end Image

end PortablePdb
