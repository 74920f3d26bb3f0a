import PortablePdb.Metadata.CodedKind
import PortablePdb.Text.Quoted

namespace PortablePdb

open Text

/-- What is wrong with data that was read, or with values that were to be written. -/
inductive Defect where
  /-- No compressed integer starts with this byte. -/
  | compressedLead (byte : UInt8)
  | compressedRange (value : Nat)
  | compressedSignedRange (value : Int)
  | narrowIndex (value : UInt32)
  | codedTable (table : Table) (kind : CodedKind)
  | noOptionalHeader
  | noClrDirectory
  | sectionOverflow (address size : UInt32)
  | unmappedAddress (address : Nat)
  | unmappedOffset (offset : Nat)
  | rootSignature (value : UInt32)
  | streamCount (count : UInt16)
  | streamOverflow (offset size : UInt32)
  | duplicateStream (name : String)
  | metadataSize
  | streamTotal (count : Nat)
  | versionSize
  | unterminatedStreamName (name : String)
  | unknownStreamName (name : String)
  | emptyBody
  | bodyHeaderSize (size : Nat)
  | bodyFormat (byte : UInt8)
  | bodySize (size : Nat)
  | clrHeaderSize (size : UInt32)
  | zeroMetadataAddress
  | zeroMetadataSize
  | noTablesStream
  | noStringsHeap
  | noTables
  | unknownTable (slot : Nat)
  | typeSystemTable (table : Table)
  | blobHeap
  | blobHeapSize
  | blobSize (size : Nat)
  | stringsHeap
  | stringIndex (index : Nat)
  | stringsHeapSize
  | nulInString (text : String)
  | guidHeap (size : Nat)
  | guidHeapSize
  | importKind (value : Nat)
  | sourceSize (size : Nat)
  | embeddedLength (length : Int)
  | embeddedText
  | steppingParent (method : Token)
  | catchHandler (offset : UInt32)
  | resumeMethod (yieldOffset : UInt32) (found expected : Token)
  | pointOrder (offset previous : UInt32)
  | pointLines (offset endLine startLine : UInt32)
  | pointSpan (offset startLine : UInt32)
  | lineDelta (delta : Int)
  | pointOffset
  | pointRange (offset : UInt32)
  | hoistedLocals (count limit : UInt32)
  | noPdbStream
  | pdbWithoutTables
  | containerWithoutPdb
  | importParent (row : UInt32)
  | rowRange
  | localScopeOrder (first second : UInt32)
  | stateMachineOrder (first second : UInt32)
  | customInfoOrder (first second : UInt32)
  | deflate
  | inflatedSize (size expected : Nat)
  deriving DecidableEq, Repr

/-- The wording of a defect. -/
def Defect.message : Defect → String
  | .compressedLead byte => s!"Invalid compressed uint - {byte}"
  | .compressedRange value => s!"Value {value} exceeds the compressed integer range"
  | .compressedSignedRange value => s!"Value {value} exceeds the compressed signed integer range"
  | .narrowIndex value => s!"Index {value} does not fit into a 2-byte column"
  | .codedTable table kind => s!"Table {table.name} is not part of coded index {kind.name}"
  | .noOptionalHeader => "File does not have an OptionalHeader"
  | .noClrDirectory => "File does not have a CLR runtime header directory"
  | .sectionOverflow address size =>
    s!"Section malformed, causing integer overflow - {address} + {size}"
  | .unmappedAddress address => s!"RVA could not be converted to offset - {address}"
  | .unmappedOffset offset => s!"Offset could not be converted to RVA - {offset}"
  | .rootSignature value => s!"CIL_HEADER_MAGIC does not match - {value}"
  | .streamCount count => s!"Invalid stream count - {count}"
  | .streamOverflow offset size =>
    s!"Stream offset and size cause integer overflow - {offset} + {size}"
  | .duplicateStream name => s!"Duplicate stream - {name}"
  | .metadataSize => "Metadata exceeds 4GB"
  | .streamTotal count => s!"Too many streams - {count}"
  | .versionSize => "Version string too long"
  | .unterminatedStreamName name => s!"Unterminated stream header name - {name}"
  | .unknownStreamName name => s!"Invalid stream header name - {name}"
  | .emptyBody => "Provided data for body parsing is empty"
  | .bodyHeaderSize size => s!"Fat method header declares {size} bytes"
  | .bodyFormat byte => s!"MethodHeader is neither FAT nor TINY - {byte}"
  | .bodySize size => s!"Method body too large - {size}"
  | .clrHeaderSize size => s!"Invalid CLR header size: expected 72, got {size}"
  | .zeroMetadataAddress => "Metadata RVA cannot be zero"
  | .zeroMetadataSize => "Metadata size cannot be zero"
  | .noTablesStream => "Metadata has no tables stream"
  | .noStringsHeap => "Metadata has no #Strings heap"
  | .noTables => "No valid rows in any of the tables"
  | .unknownTable slot => s!"Unknown table present - 0x{Hex.padded 2 slot}"
  | .typeSystemTable table => s!"Portable PDB stores type-system table {table.name}"
  | .blobHeap => "Invalid memory for #Blob heap"
  | .blobHeapSize => "#Blob heap exceeds 4GB"
  | .blobSize size => s!"Blob of {size} bytes is too large"
  | .stringsHeap => "Provided #String heap is empty"
  | .stringIndex index => s!"Invalid string at index - {index}"
  | .stringsHeapSize => "#Strings heap exceeds 4GB"
  | .nulInString text => s!"String contains a NUL byte - {Quoted.quote text}"
  | .guidHeap size => s!"#GUID heap size {size} is not a multiple of 16"
  | .guidHeapSize => "#GUID heap exceeds 32-bit indices"
  | .importKind value => s!"Invalid import kind - {value}"
  | .sourceSize size => s!"Source of {size} bytes is too large to embed"
  | .embeddedLength length => s!"Negative embedded source length - {length}"
  | .embeddedText => "Embedded source is not valid UTF-8"
  | .steppingParent method => s!"Async stepping parent {method} is not a MethodDef"
  | .catchHandler offset => s!"Catch handler offset {offset} overflows"
  | .resumeMethod yieldOffset found expected =>
    s!"Await at 0x{Hex.ofNat yieldOffset.toNat} resumes in {found}, not in {expected}"
  | .pointOrder offset previous =>
    s!"Sequence point offsets not ascending - 0x{Hex.ofNat offset.toNat} " ++
      s!"after 0x{Hex.ofNat previous.toNat}"
  | .pointLines offset endLine startLine =>
    s!"Sequence point at 0x{Hex.ofNat offset.toNat} ends on line {endLine} " ++
      s!"before its start line {startLine}"
  | .pointSpan offset startLine =>
    s!"Sequence point at 0x{Hex.ofNat offset.toNat} has an empty or reversed span " ++
      s!"on line {startLine}"
  | .lineDelta delta => s!"Line delta out of range - {delta}"
  | .pointOffset => "IL offset overflow in sequence points"
  | .pointRange offset =>
    s!"Sequence point at 0x{Hex.ofNat offset.toNat} decodes outside the valid range"
  | .hoistedLocals count limit => s!"{count} hoisted locals exceed the limit of {limit}"
  | .noPdbStream => "Not a Portable PDB, no #Pdb stream"
  | .pdbWithoutTables => "Portable PDB has no tables stream"
  | .containerWithoutPdb => "Container has no #Pdb stream"
  | .importParent row => s!"Invalid parent import scope - {row}"
  | .rowRange => "Table exceeds the 24-bit row range"
  | .localScopeOrder first second => s!"LocalScope rows {first} and {second} are out of order"
  | .stateMachineOrder first second =>
    s!"StateMachineMethod rows {first} and {second} are out of order"
  | .customInfoOrder first second =>
    s!"CustomDebugInformation rows {first} and {second} are out of order"
  | .deflate => "Deflate stream is corrupt"
  | .inflatedSize size expected =>
    s!"Deflate stream inflated to {size} bytes, expected {expected}"

/-- The failures of the library. -/
inductive Error where
  /-- The data, or a value that was to be written, has a defect. -/
  | malformed (defect : Defect)
  /-- The data ends before what was to be read or written. -/
  | outOfBounds
  /-- There is no data at all. -/
  | empty
  /-- A file could not be read or written. -/
  | file
  /-- The data is no executable image. -/
  | image
  /-- The text is no JSON document of the wanted shape. -/
  | json
  | missingCodeView (module : String)
  | duplicateDocument (path : String)
  | decompiler (reason : String)
  | invalidMethod (method : Token)
  | nesting (limit : Nat)
  /-- The pool of threads for a run cannot be created. -/
  | threadPool (reason : String)
  | cancelled
  /-- An access outside the data which the checks before it exclude. -/
  | fault
  deriving DecidableEq, Repr

/-- The wording of a failure, as diagnostics show it. -/
def Error.message : Error → String
  | .malformed defect => s!"Malformed: {defect.message}"
  | .outOfBounds => "Out of Bound read would have occurred!"
  | .empty => "Provided input was empty"
  | .file => "File could not be accessed"
  | .image => "File is not an executable image"
  | .json => "Text is not a valid manifest"
  | .missingCodeView module => s!"No CodeView debug directory entry present in {module}"
  | .duplicateDocument path => s!"Document already registered - {path}"
  | .decompiler reason => s!"Decompiler failed - {reason}"
  | .invalidMethod method => s!"Not a valid method of this module - {method}"
  | .nesting limit => s!"Reach the maximum recursion level allowed - {limit}"
  | .threadPool reason => s!"Failed to create thread pool - {reason}"
  | .cancelled => "Generation cancelled"
  | .fault => "Access outside the data"

instance : Inhabited Error := ⟨.fault⟩

/-- Fails with a defect. -/
def reject {m : Type → Type} [MonadExcept Error m] {α : Type} (defect : Defect) : m α :=
  throw (.malformed defect)

end PortablePdb
