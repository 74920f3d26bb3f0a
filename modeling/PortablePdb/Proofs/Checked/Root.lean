import PortablePdb.Metadata.Root
import PortablePdb.Proofs.Checked.Heaps
import PortablePdb.Proofs.Root

namespace PortablePdb.Checked

/-- A byte stands at its index. -/
theorem hasAt_getElem {data : Bytes} {position : Nat} (hlt : position < data.size) :
    data.HasAt position #[data[position]] := by
  refine ⟨data.extract 0 position, data.extract (position + 1), ?_, by simp; omega⟩
  rw [Array.append_singleton, ← Array.extract_succ_right (by omega) hlt,
    Array.extract_append_extract]
  simp [Nat.max_eq_right hlt]

/-- The next multiple of four. -/
def align4 (size : Nat) : Except Error Nat := do
  return (← add .long size 3) / 4 * 4

/-- The characters of a name up to the zero that ends it, and whether there is one among `left`
bytes. -/
def nameChars (data : Bytes) : (left counter : Nat) → List Char → Except Error (List Char × Bool)
  | 0, _, chars => return (chars, false)
  | left + 1, counter, chars => do
    let byte ← readFrom u8 data (← add .long 8 counter)
    if byte = 0 then return (chars, true)
    nameChars data left (counter + 1) (chars ++ [Char.ofNat byte.toNat])

/-- The header of a stream at the start of some bytes. -/
def streamHeader (data : Bytes) : Except Error StreamHeader := do
  if data.size < 9 then throw .outOfBounds
  let available ← sub data.size 8
  let (chars, isTerminated) ← nameChars data (min StreamHeader.maxName available) 0 []
  let name := String.ofList chars
  if !isTerminated then reject (.unterminatedStreamName name)
  if !StreamHeader.validNames.contains name then reject (.unknownStreamName name)
  return ⟨← le32.eval data, ← readFrom le32 data 4, name⟩

/-- The number of bytes of a header. -/
def headerSize (header : StreamHeader) : Except Error Nat := do
  add .long 8 (← align4 (← add .long header.name.utf8ByteSize 1))

/-- The headers from a position on, when others went before. -/
def streamHeaders (data : Bytes) : (count position : Nat) → List StreamHeader →
    Except Error (List StreamHeader)
  | 0, _, before => .ok before
  | count + 1, position, before => do
    if data.size < position then throw .outOfBounds
    let header ← streamHeader (← sliceFrom data position)
    Root.checkRange data header
    if before.any (·.name == header.name) then reject (.duplicateStream header.name)
    streamHeaders data count (← add .long position (← headerSize header)) (before ++ [header])

/-- The root at the start of metadata. -/
def root (data : Bytes) : Except Error Root := do
  if data.size < 36 then throw .outOfBounds
  let found ← le32.eval data
  if found ≠ Root.signature then reject (.rootSignature found)
  let length ← le32.evalAt data 12
  let versionEnd ← add .long 16 length.toNat
  if data.size < (← add .long versionEnd 4) then throw .outOfBounds
  let padded ← slice data 16 versionEnd
  let version ← slice padded 0 (padded.toList.takeWhile (· != 0)).length
  let flags ← readFrom le16 data versionEnd
  let count ← readFrom le16 data (← add .long versionEnd 2)
  let least ← mul .long count.toNat 9
  if count = 0 || StreamHeader.validNames.length < count.toNat || data.size < least then
    reject (.streamCount count)
  let streams ← streamHeaders data count.toNat (← add .long versionEnd 4) []
  return {
    majorVersion := ← readFrom le16 data 4
    minorVersion := ← readFrom le16 data 6
    reserved := ← readFrom le32 data 8
    versionLength := length
    version := Text.Utf8.lossy version
    flags, streams }

/-- The bytes of the stream with a name. -/
def streamData? (root : Root) (data : Bytes) (name : String) : Except Error (Option Bytes) := do
  match root.stream? name with
  | none => return none
  | some header =>
    let stop ← add .long header.offset.toNat header.size.toNat
    return if stop ≤ data.size then some (data.extract header.offset.toNat stop) else none

/-- The name in a header is told by the bytes up to the first zero. -/
theorem nameChars_eq {data : Bytes} (hsize : data.size < memory) {left counter : Nat}
    (hleft : 8 + counter + left ≤ data.size) (chars : List Char) :
    nameChars data left counter chars =
      .ok (chars ++ StreamHeader.nameChars (data.extract (8 + counter) (8 + counter + left)).toList,
        (data.extract (8 + counter) (8 + counter + left)).toList.contains 0) := by
  induction left generalizing counter chars with
  | zero => simp [nameChars, StreamHeader.nameChars, pure, Except.pure]
  | succ left ih =>
    have hlt : 8 + counter < data.size := by omega
    have hwindow : (data.extract (8 + counter) (8 + counter + (left + 1))).toList =
        data[8 + counter] ::
          (data.extract (8 + (counter + 1)) (8 + (counter + 1) + left)).toList := by
      simp only [Array.toList_extract, List.extract_eq_take_drop, Nat.add_sub_cancel_left]
      rw [List.drop_eq_getElem_cons (by simpa using hlt), List.take_succ_cons]
      rfl
    have hbyte : readFrom u8 data (8 + counter) = .ok data[8 + counter] := by
      rw [(readsAs_u8.readFrom Relocates.u8 hsize (Nat.le_of_lt hlt)).eq]
      exact (Reader.takes_u8 _).evalAt_eq (hasAt_getElem hlt)
    rw [nameChars, add_eq (by simp only [memory, Word.limit] at *; omega), ok_bind, hbyte, ok_bind,
      hwindow]
    by_cases hzero : data[8 + counter] = 0
    · simp [hzero, StreamHeader.nameChars, pure, Except.pure]
    · rw [if_neg hzero, ih (by omega)]
      simp [hzero, StreamHeader.nameChars, Ne.symm hzero]

theorem agrees_streamHeader {data : Bytes} {position : Nat} (hsize : data.size < memory)
    (hle : position ≤ data.size) :
    Agrees (streamHeader (data.extract position)) (StreamHeader.readAt data position)
      fun header => header.name ∈ StreamHeader.validNames := by
  have hsizeRest : (data.extract position).size = data.size - position := by simp
  have hwindow : (data.extract position).extract 8 (8 + min 32 (data.size - position - 8)) =
      data.extract (position + 8) (position + 8 + 32) := by
    rw [Array.extract_extract]
    refine Array.ext ?_ fun i _ _ => ?_
    · simp only [Array.size_extract]
      omega
    · rw [Array.getElem_extract, Array.getElem_extract]
  unfold streamHeader StreamHeader.readAt
  rw [hsizeRest]
  by_cases hshort : data.size < position + 9
  · rw [if_pos hshort, if_pos (by omega)]
    exact Agrees.error outOfBounds_ne_fault
  · have hname := nameChars_eq (by omega) (show 8 + 0 + min StreamHeader.maxName
      (data.size - position - 8) ≤ (data.extract position).size by omega) []
    rw [if_neg hshort, if_neg (by omega), sub_eq (by omega), ok_bind, hname, ok_bind]
    simp only [StreamHeader.maxName, Nat.add_zero, List.nil_append, hwindow]
    refine Agrees.guard (malformed_ne_fault _) fun _ =>
      Agrees.guard (malformed_ne_fault _) fun hvalid => ?_
    have hoffset := readsAs_le32.eval (show (data.extract position).size < memory by omega)
    have hfield := readsAs_le32.readFrom Relocates.le32
      (show (data.extract position).size < memory by omega) (show 4 ≤ _ by omega)
    rw [Relocates.le32.evalAt_eq hle, ← Nat.add_zero position, Relocates.le32.evalAt_eq hle]
    refine hoffset.bind fun offset _ => hfield.bind fun size _ => Agrees.pure ?_
    simpa using hvalid

theorem headerSize_eq {header : StreamHeader} (hname : header.name ∈ StreamHeader.validNames) :
    headerSize header = .ok header.encodedSize := by
  have hle := StreamHeader.utf8ByteSize_le hname
  simp only [headerSize, align4]
  rw [add_eq (by simp only [Word.limit]; omega), ok_bind, add_eq (by simp only [Word.limit]; omega)]
  exact add_eq (by simp only [Word.limit]; omega)

theorem agrees_checkRange (data : Bytes) (header : StreamHeader) :
    Agrees (Root.checkRange data header) (Root.checkRange data header) fun _ => True :=
  Agrees.guard nofun fun _ => Agrees.ite (fun _ => Agrees.throw nofun) fun _ => Agrees.pure trivial

theorem agrees_streamHeaders {data : Bytes} (hsize : data.size < memory) (count position : Nat)
    (before : List StreamHeader) :
    Agrees (streamHeaders data count position before) (Root.readHeaders data count position before)
      fun _ => True := by
  induction count generalizing position before with
  | zero => exact Agrees.ok trivial
  | succ count ih =>
    refine Agrees.guard nofun fun hle => Agrees.step (sliceFrom_eq (by omega)) ?_
    refine (agrees_streamHeader hsize (by omega)).bind fun header hname => ?_
    refine (agrees_checkRange data header).bind fun _ _ => Agrees.guard nofun fun _ => ?_
    have hle := StreamHeader.utf8ByteSize_le hname
    refine Agrees.step (headerSize_eq hname) <| Agrees.step (add_eq ?_) <| ih _ _
    simp only [StreamHeader.encodedSize, Bytes.align4, memory, Word.limit] at *
    omega

/-- The bytes up to the first one without a property are a slice. -/
theorem slice_takeWhile (data : Bytes) (p : UInt8 → Bool) :
    slice data 0 (data.toList.takeWhile p).length = .ok (data.toList.takeWhile p).toArray := by
  have hprefix := List.takeWhile_prefix (l := data.toList) p
  rw [slice_eq (Nat.zero_le _) hprefix.length_le]
  refine congrArg _ (Array.toList_inj.mp ?_)
  rw [Array.toList_extract, List.extract_eq_take_drop, List.drop_zero, Nat.sub_zero,
    ← List.prefix_iff_eq_take.mp hprefix]

theorem agrees_root {data : Bytes} (hsize : data.size < memory) :
    Agrees (root data) (Root.read data) fun _ => True := by
  have hlimit : data.size < 0x8000000000000000 := hsize
  refine Agrees.guard outOfBounds_ne_fault fun hlong => ?_
  refine (readsAs_le32.eval hsize).bind fun found _ =>
    Agrees.guard (malformed_ne_fault _) fun _ => ?_
  refine (readsAs_le32.evalAt hsize (by omega)).bind fun length _ => ?_
  have hlength := length.toNat_lt
  refine Agrees.step (add_eq (by simp only [Word.limit]; omega)) <|
    Agrees.step (add_eq (by simp only [Word.limit]; omega)) <|
    Agrees.guard outOfBounds_ne_fault fun hend => ?_
  refine Agrees.step (slice_eq (by omega) (by omega)) <|
    Agrees.step (slice_takeWhile _ (· != 0)) ?_
  refine (readsAs_le16.readFrom Relocates.le16 hsize (by omega)).bind fun flags _ => ?_
  refine Agrees.step (add_eq (by simp only [Word.limit]; omega)) ?_
  refine (readsAs_le16.readFrom Relocates.le16 hsize (by omega)).bind fun count _ => ?_
  have hcount := count.toNat_lt
  refine Agrees.step (mul_eq (by simp only [Word.limit]; omega)) <|
    Agrees.guard (malformed_ne_fault _) fun _ => ?_
  refine Agrees.step (add_eq (by simp only [Word.limit]; omega)) ?_
  refine (agrees_streamHeaders hsize count.toNat _ []).bind fun streams _ => ?_
  refine (readsAs_le16.readFrom Relocates.le16 hsize (by omega)).bind fun major _ => ?_
  refine (readsAs_le16.readFrom Relocates.le16 hsize (by omega)).bind fun minor _ => ?_
  refine (readsAs_le32.readFrom Relocates.le32 hsize (by omega)).bind fun reserved _ => ?_
  exact Agrees.pure trivial

theorem streamData?_eq (root : Root) (data : Bytes) (name : String) :
    streamData? root data name = .ok (root.streamData? data name) := by
  unfold streamData? Root.streamData?
  cases root.stream? name with
  | none => rfl
  | some header =>
    have hoffset := header.offset.toNat_lt
    have hlength := header.size.toNat_lt
    simp only
    rw [add_eq (by simp only [Word.limit]; omega)]
    rfl

/-- A stream is a part of the data. -/
theorem size_le_of_streamData? {root : Root} {data stream : Bytes} {name : String}
    (hstream : root.streamData? data name = some stream) : stream.size ≤ data.size := by
  obtain ⟨header, -, hstream⟩ := Option.bind_eq_some_iff.mp hstream
  simp only [Option.ite_none_right_eq_some, Option.some.injEq] at hstream
  rw [← hstream.2, Array.size_extract]
  omega

end PortablePdb.Checked
