import PortablePdb.Heap.Blobs
import PortablePdb.Heap.Guids
import PortablePdb.Heap.Strings
import PortablePdb.Proofs.Checked.Reader
import PortablePdb.Proofs.Compressed

namespace PortablePdb.Checked

/-- Reads an unsigned number in any of its three widths. -/
def readUInt : Reader Nat := do
  let lead ← u8
  if lead < 0x80 then return lead.toNat
  if lead < 0xC0 then
    let low ← u8
    let high ← Reader.lift (shiftLeft .word (lead.toNat &&& 0x3F) 8)
    return high ||| low.toNat
  if lead < 0xE0 then
    let second ← u8
    let third ← u8
    let low ← u8
    let first ← Reader.lift (shiftLeft .word (lead.toNat &&& 0x1F) 24)
    let second ← Reader.lift (shiftLeft .word second.toNat 16)
    let third ← Reader.lift (shiftLeft .word third.toNat 8)
    return first ||| second ||| third ||| low.toNat
  reject (.compressedLead lead)

/-- The bytes of a number put together by shifts, in two bytes. -/
theorem or_shiftLeft_two {lead low : Nat} (hlead : 0x80 ≤ lead) (hlt : lead < 0xC0)
    (hlow : low < 0x100) :
    ((lead &&& 0x3F) <<< 8) % Word.word.limit ||| low = (lead - 0x80) * 0x100 + low := by
  have hmask : lead &&& 0x3F = lead - 0x80 := by
    rw [show 0x3F = 2 ^ 6 - 1 from rfl, Nat.and_two_pow_sub_one_eq_mod]
    omega
  rw [hmask, Nat.mod_eq_of_lt (by simp only [Nat.shiftLeft_eq, Word.limit]; omega),
    ← Nat.shiftLeft_add_eq_or_of_lt hlow, Nat.shiftLeft_eq]

/-- The bytes of a number put together by shifts, in four bytes. -/
theorem or_shiftLeft_four {lead second third low : Nat} (hlead : 0xC0 ≤ lead) (hlt : lead < 0xE0)
    (hsecond : second < 0x100) (hthird : third < 0x100) (hlow : low < 0x100) :
    ((lead &&& 0x1F) <<< 24) % Word.word.limit ||| (second <<< 16) % Word.word.limit |||
        (third <<< 8) % Word.word.limit ||| low =
      (lead - 0xC0) * 0x1000000 + second * 0x10000 + third * 0x100 + low := by
  have hmask : lead &&& 0x1F = lead - 0xC0 := by
    rw [show 0x1F = 2 ^ 5 - 1 from rfl, Nat.and_two_pow_sub_one_eq_mod]
    omega
  have hlowest : third <<< 8 ||| low = third * 0x100 + low := by
    rw [← Nat.shiftLeft_add_eq_or_of_lt (show low < 2 ^ 8 from hlow), Nat.shiftLeft_eq]
  have hlower : second <<< 16 ||| (third * 0x100 + low) =
      second * 0x10000 + (third * 0x100 + low) := by
    rw [← Nat.shiftLeft_add_eq_or_of_lt (by omega), Nat.shiftLeft_eq]
  rw [hmask, Nat.mod_eq_of_lt (by simp only [Nat.shiftLeft_eq, Word.limit]; omega),
    Nat.mod_eq_of_lt (by simp only [Nat.shiftLeft_eq, Word.limit]; omega),
    Nat.mod_eq_of_lt (by simp only [Nat.shiftLeft_eq, Word.limit]; omega),
    Nat.or_assoc, Nat.or_assoc, hlowest, hlower, ← Nat.shiftLeft_add_eq_or_of_lt (by omega),
    Nat.shiftLeft_eq]
  omega

theorem readsAs_readUInt :
    ReadsAs readUInt Compressed.readUInt 1 fun value => value < 0x20000000 := by
  refine readsAs_u8.bind fun lead _ => ReadsAs.ite (fun hone => ?_) fun hone =>
    ReadsAs.ite (fun htwo => ?_) fun htwo => ReadsAs.ite (fun hfour => ?_) fun _ =>
      ReadsAs.throw nofun
  · have hlead := lead.toNat_lt
    exact ReadsAs.pure (by omega)
  · simp only [UInt8.lt_iff_toNat_lt, UInt8.reduceToNat] at hone htwo
    refine readsAs_u8.andThen fun low _ => ReadsAs.step (shiftLeft_eq (by decide)) ?_
    have hlow := low.toNat_lt
    rw [or_shiftLeft_two (by omega) htwo hlow]
    exact ReadsAs.pure (by omega)
  · simp only [UInt8.lt_iff_toNat_lt, UInt8.reduceToNat] at htwo hfour
    refine readsAs_u8.andThen fun second _ => readsAs_u8.andThen fun third _ =>
      readsAs_u8.andThen fun low _ => ?_
    have hsecond := second.toNat_lt
    have hthird := third.toNat_lt
    have hlow := low.toNat_lt
    refine ReadsAs.step (shiftLeft_eq (by decide)) <| ReadsAs.step (shiftLeft_eq (by decide)) <|
      ReadsAs.step (shiftLeft_eq (by decide)) ?_
    rw [or_shiftLeft_four (by omega) hfour hsecond hthird hlow]
    exact ReadsAs.pure (by omega)

theorem relocates_readUInt : Relocates Compressed.readUInt := by
  refine Relocates.u8.bind fun lead => Relocates.ite (Relocates.pure _) <|
    Relocates.ite (Relocates.u8.bind_pure _) <| Relocates.ite ?_ (Relocates.throw _)
  exact Relocates.u8.bind fun _ => Relocates.u8.bind fun _ => Relocates.u8.bind_pure _

/-- Reads a signed number; the width of its form tells within which bound it lies. -/
def readInt : Reader Int := do
  let start ← Reader.position
  let code ← readUInt
  let stop ← Reader.position
  let width ← Reader.lift (sub stop start)
  let magnitude ← Reader.lift (shiftRight .word code 1)
  return if code % 2 = 1 then (magnitude : Int) - Compressed.signedBound width else magnitude

theorem readsAs_readInt : ReadsAs readInt Compressed.readInt 1 fun value =>
    -0x10000000 ≤ value ∧ value < 0x10000000 := by
  intro data position hsize hle
  obtain ⟨heq, hmoves⟩ := readsAs_readUInt data position hsize hle
  have hchecked : readInt.runAt data position =
      match Compressed.readUInt.runAt data position with
      | .ok code stop => (do
        let width ← Reader.lift (sub stop position)
        let magnitude ← Reader.lift (shiftRight .word code 1)
        return if code % 2 = 1 then (magnitude : Int) - Compressed.signedBound width
          else magnitude : Reader Int).runAt data stop
      | .error error stop => .error error stop := by
    simp only [readInt, Reader.position, Reader.runAt_bind, Reader.runAt_get, heq]
    cases Compressed.readUInt.runAt data position <;> rfl
  have hplain : Compressed.readInt.runAt data position =
      match Compressed.readUInt.runAt data position with
      | .ok code stop =>
        .ok (Compressed.unrotate (Compressed.signedBound (stop - position)) code) stop
      | .error error stop => .error error stop := by
    simp only [Compressed.readInt, Reader.position, Reader.runAt_bind, Reader.runAt_get]
    cases Compressed.readUInt.runAt data position <;> rfl
  rw [hchecked, hplain]
  cases hrun : Compressed.readUInt.runAt data position with
  | ok code stop =>
    rw [hrun] at hmoves
    obtain ⟨hcode, hstop, hend⟩ := hmoves
    have hbound := Compressed.signedBound_le (stop - position)
    simp only [Reader.runAt_bind, sub_eq (show position ≤ stop by omega),
      shiftRight_eq (show 1 < Word.word.bits by decide), Reader.runAt_lift_ok, Reader.runAt_pure,
      Compressed.unrotate, Nat.shiftRight_eq_div_pow, Nat.pow_one, true_and]
    refine ⟨?_, hstop, hend⟩
    split <;> omega
  | error error stop =>
    rw [hrun] at hmoves
    exact ⟨rfl, hmoves⟩

/-- Whether the first byte is zero. Without bytes, there is none to look at. -/
def startsWithZero (data : Bytes) : Except Error Bool := do
  if data.isEmpty then return false
  return (← item data 0) == 0

theorem startsWithZero_eq (data : Bytes) :
    startsWithZero data = .ok (decide (data[0]? = some 0)) := by
  unfold startsWithZero
  by_cases hempty : data = #[]
  · subst hempty
    rfl
  · have hpos : 0 < data.size := Array.size_pos_iff.mpr hempty
    rw [if_neg (by simpa using hempty), item_eq hpos, ok_bind, Array.getElem?_eq_getElem hpos]
    simp [pure, Except.pure, Bool.beq_eq_decide_eq]

/-- A heap of blobs starts with the empty one. -/
def blobHeap (data : Bytes) : Except Error BlobHeap := do
  if ← startsWithZero data then return ⟨data⟩ else reject .blobHeap

/-- A heap of strings starts with the empty one. -/
def stringHeap (data : Bytes) : Except Error StringHeap := do
  if ← startsWithZero data then return ⟨data⟩ else reject .stringsHeap

theorem agrees_blobHeap (data : Bytes) :
    Agrees (blobHeap data) (BlobHeap.ofBytes data) fun heap => heap.data = data := by
  refine Agrees.step (startsWithZero_eq data) ?_
  simp only [decide_eq_true_iff]
  exact Agrees.ite (fun _ => Agrees.pure rfl) fun _ => Agrees.throw nofun

theorem agrees_stringHeap (data : Bytes) :
    Agrees (stringHeap data) (StringHeap.ofBytes data) fun heap => heap.data = data := by
  refine Agrees.step (startsWithZero_eq data) ?_
  simp only [decide_eq_true_iff]
  exact Agrees.ite (fun _ => Agrees.pure rfl) fun _ => Agrees.throw nofun

/-- The blob at a position. -/
def blobAt (heap : BlobHeap) (index : Nat) : Except Error Bytes := do
  if heap.data.size ≤ index then throw .outOfBounds
  let (length, skip) ← readFrom (do return (← readUInt, ← Reader.position)) heap.data index
  if Word.long.limit ≤ index + skip then throw .outOfBounds
  if Word.long.limit ≤ index + skip + length then throw .outOfBounds
  if heap.data.size < index + skip + length then throw .outOfBounds
  slice heap.data (index + skip) (index + skip + length)

/-- A blob is as long as its length says, if the heap does not end before. -/
theorem blobAt_eq (heap : BlobHeap) (index : Nat) :
    heap.blobAt index =
      match Compressed.readUInt.runAt heap.data index with
      | .ok length start =>
        if heap.data.size < start + length then .error .outOfBounds
        else .ok (heap.data.extract start (start + length))
      | .error error _ => .error error := by
  rw [BlobHeap.blobAt, Reader.evalAt, BlobHeap.readBlob, Reader.runAt_bind]
  cases Compressed.readUInt.runAt heap.data index with
  | ok length start =>
    by_cases hlt : heap.data.size < start + length
    · simp only [Reader.runAt_bytes_of_lt hlt, if_pos hlt]
    · simp only [Reader.runAt_bytes (Nat.le_of_not_lt hlt), if_neg hlt]
  | error error start => rfl

theorem agrees_blobAt {heap : BlobHeap} (hsize : heap.data.size < memory) (index : Nat) :
    Agrees (blobAt heap index) (heap.blobAt index) fun blob => blob.size < memory := by
  rw [blobAt_eq]
  unfold blobAt
  by_cases hend : heap.data.size ≤ index
  · have hempty : Compressed.readUInt.runAt heap.data index = .error .outOfBounds index := by
      simp only [Compressed.readUInt, Reader.u8, Reader.natLE, Reader.runAt_bind,
        Reader.runAt_bytes_of_lt (show heap.data.size < index + 1 by omega)]
    rw [if_pos hend, hempty]
    exact Agrees.error nofun
  · have hsizeRest : (heap.data.extract index).size < memory := by
      simp only [Array.size_extract]
      omega
    have hrun := relocates_readUInt heap.data index 0 (by omega)
    obtain ⟨heq, hmoves⟩ := readsAs_readUInt (heap.data.extract index) 0 hsizeRest (Nat.zero_le _)
    rw [Nat.add_zero] at hrun
    rw [if_neg hend, hrun, readFrom, sliceFrom_eq (by omega), ok_bind, Reader.eval, Reader.evalAt,
      Reader.runAt_bind, heq]
    cases hlength : Compressed.readUInt.runAt (heap.data.extract index) 0 with
    | ok length skip =>
      rw [hlength] at hmoves
      obtain ⟨hlt, -, hskip⟩ := hmoves
      simp only [Array.size_extract] at hskip
      simp only [memory] at hsize
      simp only [moved, Reader.position, Reader.runAt_bind, Reader.runAt_get, Reader.runAt_pure,
        ok_bind, Word.limit]
      rw [if_neg (by omega), if_neg (by omega)]
      refine Agrees.ite (fun _ => Agrees.throw nofun) fun hfits => ?_
      rw [slice_eq (Nat.le_add_right _ _) (Nat.le_of_not_lt hfits)]
      refine Agrees.ok ?_
      simp only [Array.size_extract, memory]
      omega
    | error error stop =>
      rw [hlength] at hmoves
      exact Agrees.error hmoves

/-- The string at a position. -/
def stringAt (heap : StringHeap) (index : Nat) : Except Error String := do
  if heap.data.size ≤ index then throw .outOfBounds
  let rest ← sliceFrom heap.data index
  match StringHeap.endOf? rest 0 with
  | none => reject (.stringIndex index)
  | some stop =>
    match Bytes.toText? (rest.extract 0 stop) with
    | some text => return text
    | none => reject (.stringIndex index)

/-- Where a slice of a slice stands in the data. -/
theorem extract_extract_zero (data : Bytes) (start stop : Nat) :
    (data.extract start).extract 0 stop = data.extract start (start + stop) := by
  rw [Array.extract_extract, Nat.add_zero]
  refine Array.ext ?_ fun i _ _ => ?_
  · simp only [Array.size_extract]
    omega
  · rw [Array.getElem_extract, Array.getElem_extract]

/-- The end of a string is found in the bytes behind a position as from that position on. -/
theorem endOf?_extract {data : Bytes} {start : Nat} (hstart : start ≤ data.size) (position : Nat) :
    StringHeap.endOf? data (start + position) =
      (StringHeap.endOf? (data.extract start) position).map (start + ·) := by
  induction hleft : data.size - (start + position) generalizing position with
  | zero =>
    rw [StringHeap.endOf?, dif_neg (by omega), StringHeap.endOf?,
      dif_neg (by simp only [Array.size_extract]; omega)]
    rfl
  | succ left ih =>
    have hlt : position < (data.extract start).size := by
      simp only [Array.size_extract]
      omega
    have hrest := ih (position + 1) (by omega)
    rw [StringHeap.endOf?.eq_def data, StringHeap.endOf?.eq_def (data.extract start),
      dif_pos (by omega), dif_pos hlt, Array.getElem_extract]
    split
    · rfl
    · exact hrest

theorem agrees_stringAt (heap : StringHeap) (index : Nat) :
    Agrees (stringAt heap index) (heap.stringAt index) fun _ => True := by
  refine Agrees.ite (fun _ => Agrees.throw nofun) fun hlt => ?_
  have hle : index ≤ heap.data.size := by omega
  refine Agrees.step (sliceFrom_eq hle) ?_
  have hend := endOf?_extract hle 0
  rw [Nat.add_zero] at hend
  rw [hend]
  cases StringHeap.endOf? (heap.data.extract index) 0 with
  | none => exact Agrees.throw nofun
  | some stop =>
    simp only [Option.map_some, extract_extract_zero]
    cases Bytes.toText? (heap.data.extract index (index + stop)) with
    | none => exact Agrees.throw nofun
    | some text => exact Agrees.pure trivial

/-- The identifier with a number. -/
def guidAt (heap : GuidHeap) (index : Nat) : Except Error Guid := do
  if index = 0 then return Guid.nil
  if heap.size < index then throw .outOfBounds
  let start ← mul .long (← sub index 1) 16
  let stop ← add .long start 16
  match Guid.ofBytes? (← slice heap.data start stop) with
  | some guid => return guid
  | none => throw .fault

theorem agrees_guidAt {heap : GuidHeap} (hsize : heap.data.size < memory) (index : Nat) :
    Agrees (guidAt heap index) (heap.guidAt index) fun _ => True := by
  refine Agrees.ite (fun _ => Agrees.pure trivial) fun hzero =>
    Agrees.ite (fun _ => Agrees.throw nofun) fun hlast => ?_
  have hindex : index * 16 ≤ heap.data.size := by
    simp only [GuidHeap.size] at hlast
    omega
  simp only [memory] at hsize
  have hstop : (index - 1) * 16 + 16 = index * 16 := by omega
  have hform : (heap.data.extract ((index - 1) * 16) (index * 16)).size = 16 := by
    simp only [Array.size_extract]
    omega
  refine Agrees.step (sub_eq (by omega)) <|
    Agrees.step (mul_eq (by simp only [Word.limit]; omega)) <|
    Agrees.step (add_eq (by simp only [Word.limit]; omega)) <|
    Agrees.step (slice_eq (by omega) (by omega)) ?_
  rw [hstop, Guid.ofBytes?, dif_pos hform]
  exact Agrees.ok trivial

end PortablePdb.Checked
