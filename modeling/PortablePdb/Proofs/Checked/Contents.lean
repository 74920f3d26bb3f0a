import PortablePdb.CustomInfo.Blob
import PortablePdb.Document.Name
import PortablePdb.Imports.Blob
import PortablePdb.Proofs.Checked.Heaps
import PortablePdb.Proofs.Checked.Layout
import PortablePdb.SequencePoints.Blob

namespace PortablePdb.Checked

/-- Reads the position of a part, and the part from the heap. -/
def readPart (blobs : BlobHeap) : Reader (List Char) := do
  let blob ← Reader.lift (blobAt blobs (← readUInt))
  return (Text.Utf8.lossy blob).toList

/-- The path that a blob holds. -/
def documentName (blobs : BlobHeap) (blob : Bytes) : Except Error String :=
  Reader.eval (do
    let separator ← u8
    let parts ← Reader.items (readPart blobs)
    if separator = 0 then return String.ofList parts.flatten
    else return String.ofList (Text.join (Char.ofNat separator.toNat) parts)) blob

theorem readsAs_readPart {blobs : BlobHeap} (hblobs : blobs.data.size < memory) :
    ReadsAs (readPart blobs) (DocumentName.readPart blobs) 1 fun _ => True :=
  readsAs_readUInt.bind fun index _ => (ReadsAs.lift (agrees_blobAt hblobs index)).andThen
    fun _ _ => ReadsAs.pure trivial

theorem agrees_documentName {blobs : BlobHeap} {blob : Bytes} (hblobs : blobs.data.size < memory)
    (hblob : blob.size < memory) :
    Agrees (documentName blobs blob) (DocumentName.decode blobs blob) fun _ => True := by
  refine ReadsAs.eval (readsAs_u8.bind fun separator _ => ?_) hblob
  exact ((readsAs_readPart hblobs).items (Nat.le_refl 1)).andThen fun parts _ =>
    ReadsAs.ite (fun _ => ReadsAs.pure trivial) fun _ => ReadsAs.pure trivial

section SequencePoints

open SequencePoints

/-- The point at some positions, if they are in range. -/
def pointBetween? (offset document : UInt32) (startLine startColumn endLine endColumn : Int) :
    Option SequencePoint :=
  let isLine (line : Int) := 0 ≤ line && line < 0x100000000
  let isColumn (column : Int) := 0 ≤ column && column < 0x10000
  if isLine startLine && isLine endLine && isColumn startColumn && isColumn endColumn then
    some
      { offset, document
        startLine := startLine.toNat.toUInt32, startColumn := startColumn.toNat.toUInt16
        endLine := endLine.toNat.toUInt32, endColumn := endColumn.toNat.toUInt16 }
  else none

/-- Reads how many columns a range extends over. -/
def readColumns (lines : Nat) : Reader Int :=
  if lines = 0 then Int.ofNat <$> readUInt else readInt

/-- Reads the start of a range, which is relative to that of the last visible point. -/
def readStart : (previous : Option (Int × Int)) → Reader (Int × Int)
  | none => return (Int.ofNat (← readUInt), Int.ofNat (← readUInt))
  | some (line, column) => do
    let line ← Reader.lift (addSigned line (← readInt))
    let column ← Reader.lift (addSigned column (← readInt))
    return (line, column)

/-- The point with the range that starts at `start`, and the cursor after it. -/
def place (cursor : Cursor) (offset : UInt32) (start : Int × Int) (lines : Nat) (columns : Int) :
    Except Error (SequencePoint × Cursor) := do
  let endLine ← addSigned start.1 lines
  let endColumn ← addSigned start.2 columns
  match pointBetween? offset cursor.document start.1 start.2 endLine endColumn with
  | some point => return (point, { cursor with offset, start := some start, hasPoint := true })
  | none => reject (.pointRange offset)

/-- Reads the range of a point at an offset; an empty range marks a hidden point. -/
def readRange (cursor : Cursor) (offset : UInt32) : Reader (SequencePoint × Cursor) := do
  let lines ← readUInt
  let columns ← readColumns lines
  if lines = 0 && columns = 0 then
    let point := { SequencePoint.hidden offset with document := cursor.document }
    return (point, { cursor with offset, hasPoint := true })
  let start ← readStart cursor.start
  Reader.lift (place cursor offset start lines columns)

/-- Reads a point or a change of document. -/
def readPoint (cursor : Cursor) : Reader (Option SequencePoint × Cursor) := do
  let offsetDelta ← readUInt
  if offsetDelta = 0 && cursor.hasPoint then
    let document ← readUInt
    return (none, { cursor with document := document.toUInt32 })
  let offset := cursor.offset.toNat + offsetDelta
  if 0xFFFFFFFF < offset then reject .pointOffset
  let (point, cursor) ← readRange cursor offset.toUInt32
  return (some point, cursor)

/-- The points that a blob holds. -/
def sequencePoints (blob : Bytes) (hasInitialDocument : Bool) : Except Error SequencePoints :=
  Reader.eval (do
    if ← Reader.hasMore then
      let localSignature := (← readUInt).toUInt32
      let initialDocument ←
        if hasInitialDocument then pure (some (← readUInt).toUInt32) else pure none
      let points ← Reader.collect readPoint {}
      return { localSignature, initialDocument, points }
    else return {}) blob

/-- The last visible point starts at a line and a column. -/
def IsPlaced (cursor : Cursor) : Prop :=
  ∀ line column, cursor.start = some (line, column) →
    0 ≤ line ∧ line < 0x100000000 ∧ 0 ≤ column ∧ column < 0x10000

theorem readsAs_readColumns {lines : Nat} :
    ReadsAs (readColumns lines) (SequencePoints.readColumns lines) 1 fun columns =>
      -0x20000000 ≤ columns ∧ columns < 0x20000000 := by
  refine ReadsAs.ite (fun _ => ?_) fun _ =>
    readsAs_readInt.mono (Nat.le_refl 1) fun columns hcolumns => by omega
  refine readsAs_readUInt.bind_pure fun columns hcolumns => ⟨rfl, ?_⟩
  simp only [Int.ofNat_eq_natCast]
  omega

theorem readsAs_readStart {cursor : Cursor} (hcursor : IsPlaced cursor) :
    ReadsAs (readStart cursor.start) (SequencePoints.readStart cursor.start) 0 fun start =>
      -0x200000000 ≤ start.1 ∧ start.1 < 0x200000000 ∧
        -0x200000000 ≤ start.2 ∧ start.2 < 0x200000000 := by
  cases hstart : cursor.start with
  | none =>
    refine readsAs_readUInt.andThen fun line hline => readsAs_readUInt.andThen fun column hcolumn =>
      ReadsAs.pure ?_
    simp only [Int.ofNat_eq_natCast]
    omega
  | some start =>
    obtain ⟨line, column⟩ := start
    obtain ⟨hline, hlineLt, hcolumn, hcolumnLt⟩ := hcursor line column hstart
    refine readsAs_readInt.andThen fun lines hlines => ?_
    refine ReadsAs.step (addSigned_eq (by simp only [memory]; omega) (by simp only [memory]; omega))
      ?_
    refine readsAs_readInt.andThen fun columns hcolumns => ?_
    refine ReadsAs.step (addSigned_eq (by simp only [memory]; omega) (by simp only [memory]; omega))
      ?_
    exact ReadsAs.pure (by omega)

theorem agrees_place (cursor : Cursor) (offset : UInt32) {start : Int × Int} {lines : Nat}
    {columns : Int}
    (hstart : -0x200000000 ≤ start.1 ∧ start.1 < 0x200000000 ∧
      -0x200000000 ≤ start.2 ∧ start.2 < 0x200000000)
    (hlines : lines < 0x20000000) (hcolumns : -0x20000000 ≤ columns ∧ columns < 0x20000000) :
    Agrees (place cursor offset start lines columns)
      (SequencePoints.place cursor offset start lines columns) fun result => IsPlaced result.2 := by
  refine Agrees.step (addSigned_eq (by simp only [memory]; omega) (by simp only [memory]; omega)) <|
    Agrees.step (addSigned_eq (by simp only [memory]; omega) (by simp only [memory]; omega)) ?_
  change Agrees _ (match pointBetween? offset cursor.document start.1 start.2 (start.1 + lines)
    (start.2 + columns) with
    | some point => Except.ok (point, { cursor with offset, start := some start, hasPoint := true })
    | none => reject (.pointRange offset)) _
  cases hpoint : pointBetween? offset cursor.document start.1 start.2 (start.1 + lines)
      (start.2 + columns) with
  | none => exact Agrees.throw (malformed_ne_fault _)
  | some point =>
    refine Agrees.pure fun line column hplaced => ?_
    obtain ⟨rfl, rfl⟩ := Prod.mk.inj (Option.some.inj hplaced)
    simp only [pointBetween?, Option.ite_none_right_eq_some, Bool.and_eq_true,
      decide_eq_true_eq] at hpoint
    omega

theorem readsAs_readRange {cursor : Cursor} (hcursor : IsPlaced cursor) (offset : UInt32) :
    ReadsAs (readRange cursor offset) (SequencePoints.readRange cursor offset) 0
      fun result => IsPlaced result.2 := by
  refine readsAs_readUInt.andThen fun lines hlines => readsAs_readColumns.andThen
    fun columns hcolumns => ReadsAs.ite (fun _ => ReadsAs.pure hcursor) fun _ => ?_
  exact (readsAs_readStart hcursor).andThen fun start hstart =>
    ReadsAs.lift (agrees_place cursor offset hstart hlines hcolumns)

theorem readsAs_readPoint {cursor : Cursor} (hcursor : IsPlaced cursor) :
    ReadsAs (readPoint cursor) (SequencePoints.readPoint cursor) 1
      fun result => IsPlaced result.2 := by
  refine readsAs_readUInt.bind fun delta _ => ReadsAs.ite (fun _ => ?_) fun _ => ?_
  · exact readsAs_readUInt.andThen fun document _ => ReadsAs.pure hcursor
  · exact ReadsAs.guard nofun fun _ => (readsAs_readRange hcursor _).andThen fun result hresult =>
      ReadsAs.pure hresult

theorem agrees_sequencePoints {blob : Bytes} (hblob : blob.size < memory)
    (hasInitialDocument : Bool) :
    Agrees (sequencePoints blob hasInitialDocument) (SequencePoints.decode blob hasInitialDocument)
      fun _ => True := by
  refine ReadsAs.eval (readsAs_hasMore.andThen fun hasMore _ => ReadsAs.ite (fun _ => ?_)
    fun _ => ReadsAs.pure trivial) hblob
  refine readsAs_readUInt.andThen fun localSignature _ => ?_
  have hpoints : ReadsAs (Reader.collect readPoint {})
      (Reader.collect SequencePoints.readPoint {}) 0 fun _ => True :=
    ReadsAs.collect (fun _ => readsAs_readPoint) nofun
  refine ReadsAs.ite (fun _ => ?_) fun _ => ?_
  · exact readsAs_readUInt.andThen fun document _ => hpoints.andThen fun points _ =>
      ReadsAs.pure trivial
  · exact hpoints.andThen fun points _ => ReadsAs.pure trivial

end SequencePoints

/-- Reads the position of a name, and the name from the heap. -/
def readName (blobs : BlobHeap) : Reader String := do
  let blob ← Reader.lift (blobAt blobs (← readUInt))
  return Text.Utf8.lossy blob

/-- Reads the row of a referenced assembly. -/
def readAssembly : Reader Token := do
  Reader.lift (token .assemblyRef (← readUInt).toUInt32)

/-- Reads a reference to a type. -/
def readType : Reader Token := do
  let index ← Reader.lift (decode .typeDefOrRef (← readUInt).toUInt32)
  return index.token

/-- Reads an import. -/
def readImport (blobs : BlobHeap) : Reader Import := do
  match ← readUInt with
  | 1 => return .importNamespace (← readName blobs)
  | 2 => return .importAssemblyNamespace (← readAssembly) (← readName blobs)
  | 3 => return .importType (← readType)
  | 4 => return .importXmlNamespace (← readName blobs) (← readName blobs)
  | 5 => return .importAssemblyReferenceAlias (← readName blobs)
  | 6 => return .defineAssemblyAlias (← readName blobs) (← readAssembly)
  | 7 => return .defineNamespaceAlias (← readName blobs) (← readName blobs)
  | 8 => return .defineAssemblyNamespaceAlias (← readName blobs) (← readAssembly) (← readName blobs)
  | 9 => return .defineTypeAlias (← readName blobs) (← readType)
  | kind => reject (.importKind kind)

/-- The imports that a blob holds. -/
def imports (blobs : BlobHeap) (blob : Bytes) : Except Error (List Import) :=
  (Reader.items (readImport blobs)).eval blob

theorem readsAs_readName {blobs : BlobHeap} (hblobs : blobs.data.size < memory) :
    ReadsAs (readName blobs) (Imports.readName blobs) 1 fun _ => True :=
  readsAs_readUInt.bind fun index _ => (ReadsAs.lift (agrees_blobAt hblobs index)).andThen
    fun _ _ => ReadsAs.pure trivial

theorem readsAs_readAssembly : ReadsAs readAssembly Imports.readAssembly 1 fun _ => True := by
  refine readsAs_readUInt.bind fun row _ => ?_
  rw [token_eq]
  exact ReadsAs.pure trivial

theorem readsAs_readType : ReadsAs readType Imports.readType 1 fun _ => True :=
  readsAs_readUInt.bind fun _ _ => (ReadsAs.lift (agrees_decode _ _)).andThen
    fun _ _ => ReadsAs.pure trivial

theorem readsAs_readImport {blobs : BlobHeap} (hblobs : blobs.data.size < memory) :
    ReadsAs (readImport blobs) (Imports.readImport blobs) 1 fun _ => True := by
  have hname := readsAs_readName hblobs
  refine readsAs_readUInt.bind fun kind _ => ?_
  match kind with
  | 1 => exact hname.andThen fun _ _ => ReadsAs.pure trivial
  | 2 => exact readsAs_readAssembly.andThen fun _ _ => hname.andThen fun _ _ => ReadsAs.pure trivial
  | 3 => exact readsAs_readType.andThen fun _ _ => ReadsAs.pure trivial
  | 4 => exact hname.andThen fun _ _ => hname.andThen fun _ _ => ReadsAs.pure trivial
  | 5 => exact hname.andThen fun _ _ => ReadsAs.pure trivial
  | 6 => exact hname.andThen fun _ _ => readsAs_readAssembly.andThen fun _ _ => ReadsAs.pure trivial
  | 7 => exact hname.andThen fun _ _ => hname.andThen fun _ _ => ReadsAs.pure trivial
  | 8 =>
    exact hname.andThen fun _ _ => readsAs_readAssembly.andThen fun _ _ =>
      hname.andThen fun _ _ => ReadsAs.pure trivial
  | 9 => exact hname.andThen fun _ _ => readsAs_readType.andThen fun _ _ => ReadsAs.pure trivial
  | 0 => exact ReadsAs.throw nofun
  | _ + 10 => exact ReadsAs.throw nofun

theorem agrees_imports {blobs : BlobHeap} {blob : Bytes} (hblobs : blobs.data.size < memory)
    (hblob : blob.size < memory) :
    Agrees (imports blobs blob) (Imports.decode blobs blob) fun _ => True :=
  ((readsAs_readImport hblobs).items (Nat.le_refl 1)).eval hblob

section CustomInfo

open CustomInfo

/-- The bytes behind the position. -/
def rest : Reader Bytes := do
  Reader.lift (sliceFrom (← read) (← get))

/-- All bytes up to the end. -/
def readRest : Reader Bytes := do
  let bytes ← rest
  set (← read).size
  return bytes

/-- The embedded source with some bytes, which have to be a text. -/
def embedded (isCompressed : Bool) (data : Bytes) : Reader CustomInfo :=
  match data.toText? with
  | some text => return .embeddedSource text isCompressed
  | none => reject .embeddedText

/-- Reads an embedded source. -/
def readSource : Reader CustomInfo := do
  let size := (← le32).toInt32.toInt
  let _payload ← rest
  if size < 0 then reject (.embeddedLength size)
  let payload ← readRest
  let data ← if size = 0 then pure payload else Reader.lift (Deflate.inflate payload size.toNat)
  embedded (size ≠ 0) data

/-- Reads a hoisted local. -/
def readHoisted : Reader HoistedScope := do
  return ⟨← le32, ← le32⟩

/-- Reads an await. -/
def readAwait : Reader Await := do
  let yieldOffset ← le32
  let resumeOffset ← le32
  return ⟨yieldOffset, resumeOffset, ← Reader.lift (token .methodDef (← readUInt).toUInt32)⟩

/-- Reads the stepping of a method. -/
def readStepping : Reader AsyncStepping := do
  let handler ← le32
  let awaits ← Reader.items readAwait
  return ⟨if handler = 0 then none else some (handler - 1), awaits⟩

/-- Reads a text up to the end. -/
def readText : Reader String := do
  return Text.Utf8.lossy (← readRest)

/-- Reads a value of a kind. -/
def readInfo : CustomKind → Reader CustomInfo
  | .embeddedSource => readSource
  | .hoistedLocalScopes => return .hoistedLocalScopes (← Reader.items readHoisted)
  | .asyncStepping => return .asyncStepping (← readStepping)
  | .sourceLink => return .sourceLink (← readText)
  | .compilationMetadata => return .compilationMetadata (← readText)
  | .compilationOptions => return .compilationOptions (← readText)
  | .unknown _ => return .unknown (← readRest)

/-- The value that a blob of a kind holds. -/
def customInfo (kind : CustomKind) (blob : Bytes) : Except Error CustomInfo :=
  (readInfo kind).eval blob

theorem runAt_rest {data : Bytes} {position : Nat} (hle : position ≤ data.size) :
    rest.runAt data position = .ok (data.extract position) position := by
  simp only [rest, Reader.runAt_bind, Reader.runAt_read, Reader.runAt_get, sliceFrom_eq hle,
    Reader.runAt_lift_ok]

theorem runAt_remaining (data : Bytes) (position : Nat) :
    Reader.remaining.runAt data position = .ok (data.size - position) position :=
  rfl

theorem readsAs_readRest : ReadsAs readRest CustomInfo.readRest 0 fun _ => True := by
  intro data position _ hle
  have hend : position + (data.size - position) = data.size := by omega
  have hplain : CustomInfo.readRest.runAt data position =
      .ok (data.extract position) data.size := by
    simp only [CustomInfo.readRest, Reader.runAt_bind, runAt_remaining]
    rw [Reader.runAt_bytes (by omega), hend]
  rw [hplain]
  refine ⟨?_, trivial, hle, Nat.le_refl _⟩
  simp only [readRest, Reader.runAt_bind, runAt_rest hle, Reader.runAt_read]
  rfl

theorem agrees_inflate (stream : Bytes) (expected : Nat) :
    Agrees (Deflate.inflate stream expected) (Deflate.inflate stream expected) fun _ => True := by
  unfold Deflate.inflate
  cases Deflate.inflate? stream with
  | none => exact Agrees.throw nofun
  | some data => exact Agrees.ite (fun _ => Agrees.ok trivial) fun _ => Agrees.throw nofun

/-- To look at the bytes behind the position is in range, and changes nothing. -/
theorem readsAs_rest_bind {α : Type} {next : Bytes → Reader α} {plain : Reader α} {least : Nat}
    {post : α → Prop} (hnext : ∀ bytes, ReadsAs (next bytes) plain least post) :
    ReadsAs (rest >>= next) plain least post := by
  intro data position hsize hle
  rw [Reader.runAt_bind, runAt_rest hle]
  exact hnext _ data position hsize hle

theorem readsAs_readSource : ReadsAs readSource CustomInfo.readSource 0 fun _ => True := by
  refine readsAs_le32.andThen fun size _ => readsAs_rest_bind fun _ =>
    ReadsAs.guard nofun fun _ => readsAs_readRest.andThen fun payload _ => ?_
  have htext (data : Bytes) : ReadsAs (embedded (size.toInt32.toInt ≠ 0) data)
      (embedded (size.toInt32.toInt ≠ 0) data) 0 fun _ => True := by
    unfold embedded
    cases data.toText? with
    | some text => exact ReadsAs.pure trivial
    | none => exact ReadsAs.throw nofun
  exact ReadsAs.ite (fun _ => htext payload) fun _ =>
    (ReadsAs.lift (agrees_inflate payload _)).andThen fun data _ => htext data

theorem readsAs_readInfo (kind : CustomKind) :
    ReadsAs (readInfo kind) (CustomInfo.read kind) 0 fun _ => True := by
  have hawait : ReadsAs readAwait CustomInfo.readAwait 4 fun _ => True := by
    refine readsAs_le32.bind fun yieldOffset _ => readsAs_le32.andThen fun resumeOffset _ =>
      readsAs_readUInt.andThen fun row _ => ?_
    rw [token_eq]
    exact ReadsAs.pure trivial
  have hhoisted : ReadsAs readHoisted CustomInfo.readHoisted 4 fun _ => True :=
    readsAs_le32.bind fun start _ => readsAs_le32.andThen fun length _ => ReadsAs.pure trivial
  have htext : ReadsAs readText CustomInfo.readText 0 fun _ => True :=
    readsAs_readRest.bind_pure fun _ _ => ⟨rfl, trivial⟩
  cases kind with
  | embeddedSource => exact readsAs_readSource
  | hoistedLocalScopes => exact (hhoisted.items (by omega)).bind_pure fun _ _ => ⟨rfl, trivial⟩
  | asyncStepping =>
    have hstepping : ReadsAs readStepping CustomInfo.readStepping 0 fun _ => True :=
      readsAs_le32.andThen fun handler _ => (hawait.items (by omega)).bind_pure
        fun _ _ => ⟨rfl, trivial⟩
    exact hstepping.bind_pure fun _ _ => ⟨rfl, trivial⟩
  | unknown guid => exact readsAs_readRest.bind_pure fun _ _ => ⟨rfl, trivial⟩
  | _ => exact htext.bind_pure fun _ _ => ⟨rfl, trivial⟩

theorem agrees_customInfo (kind : CustomKind) {blob : Bytes} (hblob : blob.size < memory) :
    Agrees (customInfo kind blob) (CustomInfo.decode kind blob) fun _ => True :=
  (readsAs_readInfo kind).eval hblob

end CustomInfo

end PortablePdb.Checked
