import PortablePdb.Module.Load
import PortablePdb.Proofs.Checked.Contents
import PortablePdb.Proofs.Checked.Root
import PortablePdb.Proofs.Completeness

namespace PortablePdb.Checked

/-- A range of bytes of the file. -/
def imageSlice (image : Image) (start size : Nat) : Except Error Bytes := do
  if Word.long.limit ≤ start + size then throw .outOfBounds
  if image.data.size < start + size then throw .outOfBounds
  slice image.data start (start + size)

/-- The position in the file of an address, by the sections in order. -/
def offsetIn (address : Nat) : List Image.Section → Except Error Nat
  | [] => reject (.unmappedAddress address)
  | s :: rest => do
    let stop := s.virtualAddress.toNat + s.virtualSize.toNat
    if Word.word.limit ≤ stop then reject (.sectionOverflow s.virtualAddress s.virtualSize)
    if s.virtualAddress.toNat ≤ address && address < stop then
      add .long (← sub address s.virtualAddress.toNat) s.rawPointer.toNat
    else offsetIn address rest

/-- Reads the fields of the header of the managed part. -/
def clrFields : Reader ClrHeader := do
  let size ← le32
  if size ≠ 72 then reject (.clrHeaderSize size)
  let majorVersion ← le16
  let minorVersion ← le16
  let metadataAddress ← le32
  if metadataAddress = 0 then reject .zeroMetadataAddress
  let metadataSize ← le32
  if metadataSize = 0 then reject .zeroMetadataSize
  let flags ← le32
  let rawEntryPoint ← le32
  return { size, majorVersion, minorVersion, metadataAddress, metadataSize, flags, rawEntryPoint }

/-- The header of the managed part at the start of some bytes. -/
def clrHeader (data : Bytes) : Except Error ClrHeader := do
  if data.size < ClrHeader.encodedSize then throw .outOfBounds
  clrFields.eval data

/-- The tiny header of a body. -/
def tinyBody (data : Bytes) (first : UInt8) : Except Error MethodBody := do
  let codeSize ← shiftRight .byte first.toNat 2
  if data.size < (← add .long codeSize 1) then throw .outOfBounds
  return { codeSize, headerSize := 1 }

/-- The fat header of a body. -/
def fatBody (data : Bytes) : Except Error MethodBody := do
  if data.size < 12 then throw .outOfBounds
  let flags := (← le16.eval data).toNat
  let headerSize ← mul .long (← shiftRight .half flags 12) 4
  if headerSize < 12 then reject (.bodyHeaderSize headerSize)
  let codeSize := (← readFrom le32 data 4).toNat
  if Word.long.limit ≤ codeSize + headerSize then throw .outOfBounds
  if data.size < codeSize + headerSize then throw .outOfBounds
  return {
    codeSize, headerSize
    localSignature := ⟨← readFrom le32 data 8⟩
    maxStack := (← readFrom le16 data 2).toNat
    isFat := true
    initializesLocals := flags.testBit 4
    hasSections := flags.testBit 3 }

/-- The header of the body at the start of some bytes. -/
def methodBody (data : Bytes) : Except Error MethodBody := do
  if data.isEmpty then reject .emptyBody
  let first ← u8.eval data
  match first % 4 with
  | 2 => tinyBody data first
  | 3 => fatBody data
  | _ => reject (.bodyFormat first)

/-- The code of the method whose body is at an address. -/
def bodyCode (image : Image) (address : UInt32) : Except Error MethodCode := do
  let offset ← offsetIn address.toNat image.sections
  let body ← methodBody (← imageSlice image offset (image.data.size - offset))
  if Word.word.limit ≤ body.codeSize then reject (.bodySize body.codeSize)
  return ⟨body.codeSize.toUInt32, body.localSignatureRow⟩

/-- The code of a method at an address, if there is one and its body can be read. -/
def codeAt (image : Image) (address : UInt32) : Except Error (Option MethodCode) := do
  if address = 0 then return none
  match bodyCode image address with
  | .ok code => return some code
  | .error error => if error = .fault then throw .fault else return none

/-- Reads an entry of the debug directory. -/
def debugEntry : Reader DebugEntry := do
  return ⟨← le32, ← le32, ← le16, ← le16, ← le32, ← le32, ← le32, ← le32⟩

/-- Reads a number of entries. -/
def debugEntriesOf : (count : Nat) → Reader (List DebugEntry)
  | 0 => return []
  | count + 1 => return (← debugEntry) :: (← debugEntriesOf count)

/-- The entries of the debug directory. -/
def debugEntries (image : Image) : Except Error (List DebugEntry) := do
  match image.usableDirectory? Image.debugDirectory with
  | none => return []
  | some directory =>
    let offset ← offsetIn directory.address.toNat image.sections
    let data ← imageSlice image offset directory.size.toNat
    (debugEntriesOf (data.size / DebugEntry.encodedSize)).eval data

/-- The record of a debug container in some bytes, unless it is of another format. -/
def codeViewIn? (stamp : UInt32) (data : Bytes) : Except Error (Option CodeView) := do
  if (← le32.eval data) ≠ CodeView.signature then return none
  match Guid.ofBytes? (← slice data 4 20) with
  | none => throw .fault
  | some guid =>
    let age ← le32.evalAt data 20
    let rest ← sliceFrom data 24
    let path ← slice rest 0 (rest.toList.takeWhile (· != 0)).length
    return some { guid, age, path := Text.Utf8.lossy path, stamp }

/-- The record of the debug container that an entry leads to, if it leads to one. -/
def codeViewOf? (image : Image) (entry : DebugEntry) : Except Error (Option CodeView) := do
  if entry.type ≠ DebugEntry.codeViewType || entry.size < 24 then return none
  let offset ← if entry.pointer ≠ 0 then pure entry.pointer.toNat
    else offsetIn entry.address.toNat image.sections
  codeViewIn? entry.stamp (← imageSlice image offset entry.size.toNat)

/-- The first record among the entries. -/
def firstCodeView? (image : Image) : List DebugEntry → Except Error (Option CodeView)
  | [] => return none
  | entry :: entries => do
    match ← codeViewOf? image entry with
    | some codeView => return some codeView
    | none => firstCodeView? image entries

/-- The record of the debug container of an image. -/
def codeView? (image : Image) : Except Error (Option CodeView) := do
  firstCodeView? image (← debugEntries image)

section Agreement

variable {image : Image} {data : Bytes}

theorem agrees_imageSlice (hsize : image.data.size < memory) (start size : Nat) :
    Agrees (imageSlice image start size) (image.slice start size) fun data =>
      data.size = size ∧ data.size < memory := by
  unfold imageSlice Image.slice
  by_cases hle : start + size ≤ image.data.size
  · have hextract : (image.data.extract start (start + size)).size = size := by
      simp only [Array.size_extract]
      omega
    simp only [memory] at hsize
    rw [if_pos hle, if_neg (by simp only [Word.limit]; omega), if_neg (by omega),
      slice_eq (Nat.le_add_right start size) hle]
    exact Agrees.ok ⟨hextract, by simp only [memory]; omega⟩
  · rw [if_neg hle, if_pos (Nat.lt_of_not_le hle)]
    split <;> exact Agrees.error outOfBounds_ne_fault

theorem agrees_offsetIn (address : Nat) (sections : List Image.Section) :
    Agrees (offsetIn address sections) (Image.offsetIn address sections) fun _ => True := by
  induction sections with
  | nil => exact Agrees.error nofun
  | cons s rest ih =>
    simp only [offsetIn, Image.offsetIn]
    by_cases hoverflow : 0xFFFFFFFF < s.virtualAddress.toNat + s.virtualSize.toNat
    · have hlimit : Word.word.limit ≤ s.virtualAddress.toNat + s.virtualSize.toNat := hoverflow
      rw [if_pos hlimit, if_pos hoverflow]
      exact Agrees.throw nofun
    · have hlimit : ¬ Word.word.limit ≤ s.virtualAddress.toNat + s.virtualSize.toNat := hoverflow
      rw [if_neg hlimit, if_neg hoverflow]
      refine Agrees.ite (fun hwithin => ?_) fun _ => ih
      simp only [Bool.and_eq_true, decide_eq_true_eq] at hwithin
      have haddress := s.virtualSize.toNat_lt
      have hpointer := s.rawPointer.toNat_lt
      refine Agrees.step (sub_eq hwithin.1) ?_
      rw [add_eq (by simp only [Word.limit]; omega)]
      exact Agrees.ok trivial

theorem agrees_clrHeader (hsize : data.size < memory) :
    Agrees (clrHeader data) (ClrHeader.read data) fun _ => True := by
  have hfields : ReadsAs clrFields ClrHeader.readFields 0 fun _ => True := by
    refine readsAs_le32.andThen fun size _ => ReadsAs.guard nofun fun _ => ?_
    refine readsAs_le16.andThen fun _ _ => readsAs_le16.andThen fun _ _ => ?_
    refine readsAs_le32.andThen fun address _ => ReadsAs.guard nofun fun _ => ?_
    refine readsAs_le32.andThen fun metadataSize _ => ReadsAs.guard nofun fun _ => ?_
    exact readsAs_le32.andThen fun _ _ => readsAs_le32.andThen fun _ _ => ReadsAs.pure trivial
  exact Agrees.guard nofun fun _ => hfields.eval hsize

theorem agrees_tinyBody (hpos : 0 < data.size) :
    Agrees (tinyBody data data[0]) (MethodBody.readTiny.eval data) fun body =>
      body.codeSize < Word.word.limit := by
  have hbyte := data[0].toNat_lt
  have hshift : data[0].toNat >>> 2 = data[0].toNat / 4 := Nat.shiftRight_eq_div_pow _ 2
  have hfirst := Reader.takes_u8 data[0] data 0 (hasAt_getElem hpos)
  rw [Reader.eval, MethodBody.readTiny, Reader.evalAt_bind (runAt_remaining data 0),
    Reader.evalAt_bind hfirst, Reader.evalAt_ite]
  refine Agrees.step (shiftRight_eq (by decide)) ?_
  rw [hshift]
  refine Agrees.step (add_eq (by simp only [Word.limit]; omega)) <|
    Agrees.ite (fun _ => Agrees.throw outOfBounds_ne_fault) fun _ => Agrees.ok ?_
  simp only [Word.limit]
  omega

theorem agrees_fatBody (hsize : data.size < memory) :
    Agrees (fatBody data) (MethodBody.readFat.eval data) fun body =>
      body.codeSize < Word.word.limit := by
  rw [Reader.eval, MethodBody.readFat, Reader.evalAt_bind (runAt_remaining data 0),
    Reader.evalAt_ite]
  refine Agrees.ite (fun _ => Agrees.throw outOfBounds_ne_fault) fun hlong => ?_
  obtain ⟨flags, hflags⟩ := Reader.reads_le16 data 0 (by omega)
  obtain ⟨stack, hstack⟩ := Reader.reads_le16 data 2 (by omega)
  obtain ⟨code, hcode⟩ := Reader.reads_le32 data 4 (by omega)
  obtain ⟨locals, hlocals⟩ := Reader.reads_le32 data 8 (by omega)
  have hfirst : le16.eval data = .ok flags := by
    rw [(readsAs_le16.eval hsize).eq, Reader.eval, Reader.evalAt, hflags]
  have hsecond : readFrom le16 data 2 = .ok stack := by
    rw [(readsAs_le16.readFrom Relocates.le16 hsize (by omega)).eq, Reader.evalAt, hstack]
  have hthird : readFrom le32 data 4 = .ok code := by
    rw [(readsAs_le32.readFrom Relocates.le32 hsize (by omega)).eq, Reader.evalAt, hcode]
  have hfourth : readFrom le32 data 8 = .ok locals := by
    rw [(readsAs_le32.readFrom Relocates.le32 hsize (by omega)).eq, Reader.evalAt, hlocals]
  have hflagsLt := flags.toNat_lt
  have hcodeLt := code.toNat_lt
  have hshift : flags.toNat >>> 12 = flags.toNat / 0x1000 := Nat.shiftRight_eq_div_pow _ 12
  rw [Reader.evalAt_bind hflags, Reader.evalAt_ite]
  refine Agrees.step hfirst <| Agrees.step (shiftRight_eq (by decide)) ?_
  rw [hshift]
  refine Agrees.step (mul_eq (by simp only [Word.limit]; omega)) <|
    Agrees.ite (fun _ => Agrees.throw (malformed_ne_fault _)) fun _ => ?_
  rw [Reader.evalAt_bind hstack, Reader.evalAt_bind hcode, Reader.evalAt_bind hlocals,
    Reader.evalAt_ite]
  refine Agrees.step hthird ?_
  rw [if_neg (by simp only [Word.limit]; omega)]
  exact Agrees.ite (fun _ => Agrees.throw outOfBounds_ne_fault) fun _ =>
    Agrees.step hfourth <| Agrees.step hsecond <| Agrees.ok hcodeLt

theorem agrees_methodBody (hsize : data.size < memory) :
    Agrees (methodBody data) (MethodBody.read.eval data) fun body =>
      body.codeSize < Word.word.limit := by
  by_cases hempty : data.size = 0
  · obtain rfl := Array.eq_empty_of_size_eq_zero hempty
    exact Agrees.error nofun
  · have hpos : 0 < data.size := Nat.pos_of_ne_zero hempty
    have hmore : Reader.hasMore.runAt data 0 = .ok true 0 := by
      rw [Reader.runAt_hasMore, decide_eq_true hpos]
    have hpeek : Reader.peek.runAt data 0 = .ok data[0] 0 := by
      simp only [Reader.peek, Reader.runAt_bind, Reader.runAt_read, Reader.runAt_get,
        Array.getElem?_eq_getElem hpos]
      rfl
    have hfirst : u8.eval data = .ok data[0] := by
      rw [(readsAs_u8.eval hsize).eq]
      exact (Reader.takes_u8 _).evalAt_eq (hasAt_getElem hpos)
    have hisEmpty : ¬ data.isEmpty = true := by simpa using hempty
    rw [Reader.eval, MethodBody.read, Reader.evalAt_bind hmore, if_neg (by decide),
      Reader.evalAt_bind hpeek, methodBody, if_neg hisEmpty]
    refine Agrees.step hfirst ?_
    -- Both sides distinguish the format in the same way, so the format is what to split on.
    generalize data[0] % 4 = format
    by_cases htiny : format = 2
    · rw [htiny]
      exact agrees_tinyBody hpos
    by_cases hfat : format = 3
    · rw [hfat]
      exact agrees_fatBody hsize
    · repeat' split
      all_goals first | contradiction | exact Agrees.throw (malformed_ne_fault _)

/-- A body is read from the bytes behind its position. -/
theorem relocates_methodBody : Relocates MethodBody.read := by
  have htiny : Relocates MethodBody.readTiny :=
    Relocates.remaining.bind fun _ => Relocates.u8.bind fun _ =>
      ((Relocates.throw _).bind fun _ => Relocates.pure _).ite (Relocates.pure _)
  have hfat : Relocates MethodBody.readFat :=
    Relocates.remaining.bind fun _ => Relocates.ite (Relocates.throw _) <|
      Relocates.le16.bind fun _ => Relocates.ite (Relocates.throw _) <|
      Relocates.le16.bind fun _ => Relocates.le32.bind fun _ => Relocates.le32.bind fun _ =>
      Relocates.ite (Relocates.throw _) (Relocates.pure _)
  refine Relocates.hasMore.bind fun _ => Relocates.ite (Relocates.throw _) <|
    Relocates.peek.bind fun first => ?_
  split
  · exact htiny
  · exact hfat
  · exact Relocates.throw _

/-- The bytes from a position within the file on. -/
theorem imageSlice_rest (hsize : image.data.size < memory) {offset : Nat}
    (hle : offset ≤ image.data.size) :
    imageSlice image offset (image.data.size - offset) = .ok (image.data.extract offset) := by
  rw [(agrees_imageSlice hsize offset _).eq, Image.slice, Nat.add_sub_cancel' hle,
    if_pos (Nat.le_refl _)]

/-- The code of a body is what is read at its position, and a failure to read it is no fault. -/
theorem bodyCode_eq (hsize : image.data.size < memory) (address : UInt32) :
    bodyCode image address ≠ .error .fault ∧ (bodyCode image address).toOption =
      (image.addressToOffset address.toNat).toOption.bind fun offset =>
        (MethodBody.read.evalAt image.data offset).toOption.bind fun body =>
          some ⟨body.codeSize.toUInt32, body.localSignatureRow⟩ := by
  obtain ⟨heq, -, hfault⟩ := agrees_offsetIn address.toNat image.sections
  rw [bodyCode, heq, Image.addressToOffset]
  cases hoffset : Image.offsetIn address.toNat image.sections with
  | error error =>
    rw [hoffset] at hfault
    exact ⟨fun herror => hfault (congrArg _ (Except.error.inj herror)), rfl⟩
  | ok offset =>
    rw [ok_bind]
    by_cases hle : offset ≤ image.data.size
    · have hrest : (image.data.extract offset).size < memory := by
        simp only [Array.size_extract]
        omega
      obtain ⟨hbody, hpost, hfault⟩ := agrees_methodBody hrest
      have hread : MethodBody.read.evalAt image.data offset =
          MethodBody.read.eval (image.data.extract offset) := relocates_methodBody.evalAt_eq hle 0
      rw [imageSlice_rest hsize hle, ok_bind, hbody, Except.toOption, Option.bind_some, hread]
      cases hplain : MethodBody.read.eval (image.data.extract offset) with
      | error error =>
        rw [hplain] at hfault
        exact ⟨fun herror => hfault (congrArg _ (Except.error.inj herror)), rfl⟩
      | ok body =>
        rw [ok_bind, if_neg (Nat.not_le.mpr (hpost body hplain))]
        exact ⟨nofun, rfl⟩
    · have hnone : image.slice offset (image.data.size - offset) = .error .outOfBounds :=
        if_neg (by omega)
      have hmore : Reader.hasMore.runAt image.data offset = .ok false offset := by
        rw [Reader.runAt_hasMore, decide_eq_false (by omega)]
      have hread : MethodBody.read.evalAt image.data offset = reject .emptyBody := by
        rw [MethodBody.read, Reader.evalAt_bind hmore]
        rfl
      rw [(agrees_imageSlice hsize offset _).eq, hnone, Except.toOption, Option.bind_some, hread]
      exact ⟨nofun, rfl⟩

theorem codeAt_eq (hsize : image.data.size < memory) (address : UInt32) :
    codeAt image address = .ok (Module.codeAt image address) := by
  unfold codeAt Module.codeAt
  by_cases hzero : address = 0
  · rw [if_pos hzero, if_pos hzero]
    rfl
  · obtain ⟨hfault, hcode⟩ := bodyCode_eq hsize address
    rw [if_neg hzero, if_neg hzero]
    refine Eq.trans ?_ (congrArg Except.ok hcode)
    cases hbody : bodyCode image address with
    | ok code => rfl
    | error error => exact if_neg fun herror => hfault (hbody.trans (congrArg _ herror))

theorem readsAs_debugEntry : ReadsAs debugEntry DebugEntry.read 0 fun _ => True :=
  readsAs_le32.andThen fun _ _ => readsAs_le32.andThen fun _ _ => readsAs_le16.andThen fun _ _ =>
    readsAs_le16.andThen fun _ _ => readsAs_le32.andThen fun _ _ => readsAs_le32.andThen fun _ _ =>
      readsAs_le32.andThen fun _ _ => readsAs_le32.andThen fun _ _ => ReadsAs.pure trivial

theorem readsAs_debugEntriesOf (count : Nat) :
    ReadsAs (debugEntriesOf count) (DebugEntry.readMany count) 0 fun _ => True := by
  induction count with
  | zero => exact ReadsAs.pure trivial
  | succ count ih =>
    exact readsAs_debugEntry.andThen fun _ _ => ih.andThen fun _ _ => ReadsAs.pure trivial

theorem agrees_debugEntries (hsize : image.data.size < memory) :
    Agrees (debugEntries image) image.debugEntries fun _ => True := by
  unfold debugEntries Image.debugEntries
  cases image.usableDirectory? Image.debugDirectory with
  | none => exact Agrees.pure trivial
  | some directory =>
    refine (agrees_offsetIn _ _).bind fun offset _ => ?_
    refine (agrees_imageSlice hsize offset _).bind fun data hdata => ?_
    exact (readsAs_debugEntriesOf _).eval hdata.2

theorem agrees_codeViewIn? (hsize : data.size < memory) (hlong : 24 ≤ data.size) (stamp : UInt32) :
    Agrees (codeViewIn? stamp data) ((CodeView.read? stamp).eval data) fun _ => True := by
  obtain ⟨signature, hsignature⟩ := Reader.reads_le32 data 0 (by omega)
  obtain ⟨age, hage⟩ := Reader.reads_le32 data 20 (by omega)
  have hform : (data.extract 4 20).size = 16 := by
    simp only [Array.size_extract]
    omega
  have hguid : Guid.ofBytes? (data.extract 4 20) = some ⟨⟨data.extract 4 20, hform⟩⟩ :=
    dif_pos hform
  have hrunGuid : Reader.guid.runAt data 4 = .ok ⟨⟨data.extract 4 20, hform⟩⟩ 20 := by
    simp only [Reader.guid, Reader.runAt_bind,
      Reader.runAt_bytes (show 4 + 16 ≤ data.size by omega), hguid]
    rfl
  have hrest : (Reader.bytes (data.size - 24)).runAt data 24 = .ok (data.extract 24) data.size := by
    rw [Reader.runAt_bytes (by omega), Nat.add_sub_cancel' hlong]
  have hfirst : le32.eval data = .ok signature := by
    rw [(readsAs_le32.eval hsize).eq, Reader.eval, Reader.evalAt, hsignature]
  have hsecond : le32.evalAt data 20 = .ok age := by
    rw [(readsAs_le32.evalAt hsize (by omega)).eq, Reader.evalAt, hage]
  rw [Reader.eval, CodeView.read?, Reader.evalAt_bind hsignature, Reader.evalAt_ite]
  refine Agrees.step hfirst <| Agrees.ite (fun _ => Agrees.ok trivial) fun _ => ?_
  rw [Reader.evalAt_bind hrunGuid, Reader.evalAt_bind hage,
    Reader.evalAt_bind (runAt_remaining data 24), Reader.evalAt_bind hrest]
  refine Agrees.step (slice_eq (by omega) (by omega)) ?_
  rw [hguid]
  refine Agrees.step hsecond <| Agrees.step (sliceFrom_eq hlong) <|
    Agrees.step (slice_takeWhile _ (· != 0)) ?_
  rw [← Array.toList_takeWhile]
  exact Agrees.ok trivial

theorem agrees_codeViewOf? (hsize : image.data.size < memory) (entry : DebugEntry) :
    Agrees (codeViewOf? image entry) (image.codeViewOf? entry) fun _ => True := by
  unfold codeViewOf? Image.codeViewOf?
  by_cases hother : (entry.type ≠ DebugEntry.codeViewType || entry.size < 24) = true
  · rw [if_pos hother, if_pos hother]
    exact Agrees.pure trivial
  · rw [if_neg hother, if_neg hother]
    have hlong : 24 ≤ entry.size.toNat := by
      simp only [Bool.or_eq_true, decide_eq_true_eq, not_or, UInt32.not_lt] at hother
      exact hother.2
    have hslice (offset : Nat) : Agrees
        (do codeViewIn? entry.stamp (← imageSlice image offset entry.size.toNat))
        (do (CodeView.read? entry.stamp).eval (← image.slice offset entry.size.toNat))
        fun _ => True :=
      (agrees_imageSlice hsize offset _).bind fun data hdata =>
        agrees_codeViewIn? hdata.2 (hdata.1 ▸ hlong) entry.stamp
    exact Agrees.ite (fun _ => hslice _) fun _ =>
      (agrees_offsetIn _ _).bind fun offset _ => hslice offset

theorem agrees_firstCodeView? (hsize : image.data.size < memory) (entries : List DebugEntry) :
    Agrees (firstCodeView? image entries) (image.firstCodeView? entries) fun _ => True := by
  induction entries with
  | nil => exact Agrees.pure trivial
  | cons entry entries ih =>
    refine (agrees_codeViewOf? hsize entry).bind fun codeView _ => ?_
    cases codeView with
    | some codeView => exact Agrees.pure trivial
    | none => exact ih

theorem agrees_codeView? (hsize : image.data.size < memory) :
    Agrees (codeView? image) image.codeView? fun _ => True :=
  (agrees_debugEntries hsize).bind fun entries _ => agrees_firstCodeView? hsize entries

end Agreement

end PortablePdb.Checked
