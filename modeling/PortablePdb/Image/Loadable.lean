import PortablePdb.Image.Certificates
import PortablePdb.Image.Imported
import PortablePdb.Image.ThreadData
import PortablePdb.Image.ToolRecord
import PortablePdb.Metadata.ClrHeader

namespace PortablePdb.Image

/-- Whether the record of debug symbols at a position can be read: its file name has to lie in the
file. A record of an unknown format is not read further. -/
def isSymbolRecord (data : Bytes) (position size : Nat) : Bool :=
  size ≥ 24 &&
    match word32? data position with
    | none => false
    | some 0x53445352 => inFile data position size
    | some 0x3031424E => inFile data position size
    | some _ => true

/-- Whether the record of profile data at a position can be read. -/
def isProfileRecord (data : Bytes) (position size : Nat) : Bool :=
  match word32? data position with
  | none => false
  | some 0x4C544347 | some 0x50475500 => 4 < size && inFile data position size
  | some _ => true

/-- Whether the record of a reproducible build at a position can be read. -/
def isReproRecord (data : Bytes) (position size : Nat) : Bool :=
  size = 0 ||
    match word32? data position with
    | none => false
    | some length => inFile data (position + 4) length.toNat

/-- Whether a record of the debug directory of some type can be read. -/
def isDebugRecord (data : Bytes) (type position size : Nat) : Bool :=
  match type with
  | 2 => isSymbolRecord data position size
  | 12 => inFile data position 20
  | 13 => isProfileRecord data position size
  | 16 => isReproRecord data position size
  | 20 => inFile data position 4
  | _ => true

/-- Whether the records of a debug directory in the file can be read; of the records of one type
only the first one counts. -/
def isDebugDirectory (data : Bytes) (start size : Nat) : Bool :=
  let field (entry offset : Nat) := ((word32? data (start + 28 * entry + offset)).getD 0).toNat
  let entries := List.range (size / 28)
  isReadable data start size &&
    [2, 12, 13, 16, 20].all fun type =>
      match entries.find? fun entry => field entry 12 == type with
      | some entry => isDebugRecord data type (field entry 24) (field entry 16)
      | none => true

/-- Whether the metadata in a range of the file start with a signature, a version that is a text,
and a header of their streams. -/
def isMetadata (data : Bytes) (start size : Nat) : Bool :=
  inFile data start size &&
    match word32? data (start + 12) with
    | none => false
    | some length =>
      inFile data (start + 16) (length.toNat + 4) &&
        (Bytes.toText? (data.extract (start + 16) (start + 16 + length.toNat))).isSome

/-- Whether the directory of resources at a position can be read: its header, which counts the
entries with names and those with numbers, and the entries. -/
def isResourceDirectory (data : Bytes) (start : Nat) : Bool :=
  match word16? data (start + 12), word16? data (start + 14) with
  | some named, some numbered => inFile data start (16 + 8 * (named.toNat + numbered.toNat))
  | _, _ => false

namespace Loader

/-- Whether the header of the managed part at a position, and the metadata that it leads to, can be
read. -/
def isManaged (loader : Loader) (start : Nat) : Bool :=
  inFile loader.data start ClrHeader.encodedSize &&
    match word32? loader.data (start + 8), word32? loader.data (start + 12) with
    | some address, some size =>
      (loader.offset? address.toNat).any fun metadata =>
        isMetadata loader.data metadata size.toNat
    | _, _ => false

/-- The machine whose exception handlers a loader knows. -/
def exceptionMachine : UInt16 := 0x8664

/-- Whether the directory of certificates, if there is one, can be read. -/
def allowsCertificates (loader : Loader) : Bool :=
  (loader.optional.directory? certificateDirectory).all fun directory =>
    isCertificateTable loader.data directory.address.toNat directory.size.toNat

/-- Whether all directories that a loader looks at can be read. -/
def allowsDirectories (loader : Loader) : Bool :=
  loader.allows importDirectory (fun start _ => loader.areImports start) &&
    loader.allows resourceDirectory (fun start _ => isResourceDirectory loader.data start) &&
    (loader.machine != exceptionMachine ||
      loader.allows exceptionDirectory fun start size => start % 4 == 0 && size % 12 == 0) &&
    loader.allowsCertificates &&
    loader.allows relocationDirectory (isReadable loader.data) &&
    loader.allows debugDirectory (isDebugDirectory loader.data) &&
    loader.allows threadDirectory (fun start _ => loader.isThreadData start) &&
    loader.allows loadDirectory (fun start size => 4 ≤ size && inFile loader.data start size) &&
    loader.allows clrDirectory fun start _ => loader.isManaged start

end Loader

/-- Whether a loader accepts an image with the given headers. -/
def isLoadable (data : Bytes) (headers : Headers) : Bool :=
  ToolRecord.isReadable (data.extract ToolRecord.origin headers.position) &&
    headers.optional.all fun optional =>
      Loader.allowsDirectories ⟨data, headers.sections, headers.machine, optional⟩

end PortablePdb.Image
