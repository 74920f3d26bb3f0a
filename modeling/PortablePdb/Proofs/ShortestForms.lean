import PortablePdb.Proofs.Checked.Heaps
import PortablePdb.Proofs.Schema

namespace PortablePdb

namespace Reader

variable {α β : Type}

theorem runAt_map (reader : Reader α) (f : α → β) (data : Bytes) (position : Nat) :
    (f <$> reader).runAt data position =
      match reader.runAt data position with
      | .ok value stop => .ok (f value) stop
      | .error error stop => .error error stop := by
  rw [map_eq_pure_bind, runAt_bind]
  cases reader.runAt data position <;> rfl

/-- Where the reader gives a value, the number of bytes that it has moved forward by goes with the
value. -/
def Spans (reader : Reader α) (post : Nat → α → Prop) : Prop :=
  ∀ data start value stop, reader.runAt data start = .ok value stop →
    ∃ width, stop = start + width ∧ post width value

theorem spans_pure {post : Nat → α → Prop} {value : α} (hvalue : post 0 value) :
    (pure value : Reader α).Spans post := by
  rintro _ _ _ _ ⟨⟩
  exact ⟨0, rfl, hvalue⟩

theorem spans_throw {post : Nat → α → Prop} (error : Error) :
    (throw error : Reader α).Spans post :=
  nofun

theorem Advances.bind_spans {reader : Reader α} {next : α → Reader β} {post : Nat → β → Prop}
    {size : Nat} (hreader : reader.Advances size)
    (hnext : ∀ value, (next value).Spans fun more => post (size + more)) :
    (reader >>= next).Spans post := by
  intro data start result stop hrun
  rw [runAt_bind] at hrun
  split at hrun
  · next value middle hvalue =>
    obtain rfl := hreader data start value middle hvalue
    obtain ⟨more, rfl, hpost⟩ := hnext value data _ result stop hrun
    exact ⟨size + more, Nat.add_assoc start size more, hpost⟩
  · cases hrun

theorem Spans.mono {reader : Reader α} {post more : Nat → α → Prop} (hreader : reader.Spans post)
    (hmore : ∀ width value, post width value → more width value) : reader.Spans more := by
  intro data start value stop hrun
  obtain ⟨width, rfl, hpost⟩ := hreader data start value stop hrun
  exact ⟨width, rfl, hmore width value hpost⟩

theorem advances_u8 : u8.Advances 1 :=
  (((isFixed_bytes 1).bind_pure Bytes.natLE).bind_pure Nat.toUInt8).advances

end Reader

namespace Compressed

open Reader

/-- The number of bytes in which a signed number is written. -/
def signedSize (value : Int) : Nat :=
  if fits 0x40 value then 1 else if fits 0x2000 value then 2 else 4

theorem size_encodeInt {value : Int} {form : Bytes} (hform : encodeInt value = .ok form) :
    form.size = signedSize value := by
  unfold encodeInt at hform
  unfold signedSize
  split at hform
  · next hone =>
    cases hform
    rw [if_pos hone, Bytes.size_ofNatBE]
  · next hone =>
    rw [if_neg hone]
    split at hform
    · next htwo =>
      cases hform
      rw [if_pos htwo, Bytes.size_ofNatBE]
    · next htwo =>
      rw [if_neg htwo]
      split at hform
      · cases hform
        rw [Bytes.size_ofNatBE]
      · cases hform

/-- The numbers of bytes that a form can have. -/
inductive IsWidth : (width : Nat) → Prop
  | one : IsWidth 1
  | two : IsWidth 2
  | four : IsWidth 4

theorem IsWidth.pos {width : Nat} (hwidth : IsWidth width) : 0 < width := by
  cases hwidth <;> decide

/-- A form of one, two or four bytes has seven, fourteen or twenty-nine bits for its number. -/
theorem spans_readUInt : readUInt.Spans fun width code =>
    IsWidth width ∧ code < 2 * signedBound width := by
  refine advances_u8.bind_spans fun lead => ?_
  split
  · next hlead =>
    have hlead := UInt8.lt_iff_toNat_lt.mp hlead
    exact spans_pure ⟨.one, hlead⟩
  split
  · next hlead =>
    have hlead := UInt8.lt_iff_toNat_lt.mp hlead
    refine advances_u8.bind_spans fun low => spans_pure ⟨.two, ?_⟩
    have hlow := low.toNat_lt
    simp only [UInt8.reduceToNat] at hlead
    simp only [signedBound]
    omega
  split
  · next hlead =>
    have hlead := UInt8.lt_iff_toNat_lt.mp hlead
    refine advances_u8.bind_spans fun high => advances_u8.bind_spans fun middle =>
      advances_u8.bind_spans fun low => spans_pure ⟨.four, ?_⟩
    have hhigh := high.toNat_lt
    have hmiddle := middle.toNat_lt
    have hlow := low.toNat_lt
    simp only [UInt8.reduceToNat] at hlead
    simp only [signedBound]
    omega
  · exact spans_throw _

/-- No number is read from fewer bytes than it is written in. -/
theorem size_le_of_lt {width code : Nat} (hwidth : IsWidth width)
    (hlt : code < 2 * signedBound width) : size code ≤ width := by
  unfold size
  cases hwidth <;> simp only [signedBound] at hlt <;> split_ifs <;> omega

theorem fits_unrotate {bound code : Nat} (hlt : code < 2 * bound) :
    fits bound (unrotate bound code) = true := by
  rw [fits_iff]
  unfold unrotate
  split <;> omega

theorem signedSize_le_of_fits {width : Nat} {value : Int} (hwidth : IsWidth width)
    (hfits : fits (signedBound width) value = true) : signedSize value ≤ width := by
  unfold signedSize
  cases hwidth with
  | one => exact (if_pos hfits).le
  | two =>
    split
    · decide
    · exact (if_pos hfits).le
  | four => split_ifs <;> decide

/-- Reads an unsigned word. The lead bits are masked out, and the bytes moved to their places. -/
def readWord : Reader UInt32 := do
  let lead ← Reader.u8
  if lead &&& 0x80 = 0 then return lead.toUInt32
  if lead &&& 0xC0 = 0x80 then
    let low ← Reader.u8
    return ((lead.toUInt32 &&& 0x3F) <<< 8) ||| low.toUInt32
  if lead &&& 0xE0 = 0xC0 then
    let second ← Reader.u8
    let third ← Reader.u8
    let low ← Reader.u8
    return ((lead.toUInt32 &&& 0x1F) <<< 24) ||| (second.toUInt32 <<< 16) |||
      (third.toUInt32 <<< 8) ||| low.toUInt32
  reject (.compressedLead lead)

/-- The bits that a form of some width drops. -/
def droppedBits : (width : Nat) → UInt32
  | 1 => 0xFFFFFFC0
  | 2 => 0xFFFFE000
  | _ => 0xF0000000

/-- The signed word that an unsigned one stands for; the bits that the form has dropped are those of
the sign. -/
def extendSign (width : Nat) (code : UInt32) : Int32 :=
  (if code &&& 1 ≠ 0 then code >>> 1 ||| droppedBits width else code >>> 1).toInt32

/-- Reads a signed word. -/
def readSignedWord : Reader Int32 := do
  let start ← Reader.position
  let code ← readWord
  let stop ← Reader.position
  return extendSign (stop - start) code

/-- The highest bits of a lead byte tell whether it lies below a bound, if they do so for all bytes
from another bound on. -/
theorem lead_iff {lead mask pattern first last : UInt8} (hlead : ¬ lead < first)
    (hall : ∀ bits : BitVec 8, ¬ bits < first.toBitVec →
      (bits &&& mask.toBitVec = pattern.toBitVec ↔ bits < last.toBitVec)) :
    lead &&& mask = pattern ↔ lead < last := by
  rw [← UInt8.toBitVec_inj, UInt8.lt_iff_toBitVec_lt]
  exact hall lead.toBitVec hlead

theorem lead_one (lead : UInt8) : lead &&& 0x80 = 0 ↔ lead < 0x80 := by
  have hlead : ¬ lead < 0 := UInt8.not_lt_zero
  exact lead_iff hlead (by decide)

theorem lead_two (lead : UInt8) (hone : ¬ lead < 0x80) : lead &&& 0xC0 = 0x80 ↔ lead < 0xC0 :=
  lead_iff hone (by decide)

theorem lead_four (lead : UInt8) (htwo : ¬ lead < 0xC0) : lead &&& 0xE0 = 0xC0 ↔ lead < 0xE0 :=
  lead_iff htwo (by decide)

theorem toNat_word_two {lead : UInt8} (low : UInt8) (hone : ¬ lead < 0x80) (htwo : lead < 0xC0) :
    (((lead.toUInt32 &&& 0x3F) <<< 8) ||| low.toUInt32).toNat =
      (lead.toNat - 0x80) * 0x100 + low.toNat := by
  simp only [UInt8.lt_iff_toNat_lt, UInt8.reduceToNat] at hone htwo
  have hform := Checked.or_shiftLeft_two (by omega) htwo low.toNat_lt
  simpa [Checked.Word.limit] using hform

theorem toNat_word_four {lead : UInt8} (second third low : UInt8) (htwo : ¬ lead < 0xC0)
    (hfour : lead < 0xE0) :
    (((lead.toUInt32 &&& 0x1F) <<< 24) ||| (second.toUInt32 <<< 16) ||| (third.toUInt32 <<< 8) |||
        low.toUInt32).toNat =
      (lead.toNat - 0xC0) * 0x1000000 + second.toNat * 0x10000 + third.toNat * 0x100 +
        low.toNat := by
  simp only [UInt8.lt_iff_toNat_lt, UInt8.reduceToNat] at htwo hfour
  have hform := Checked.or_shiftLeft_four (by omega) hfour second.toNat_lt third.toNat_lt
    low.toNat_lt
  simpa [Checked.Word.limit] using hform

/-- Words are read where numbers are. -/
theorem toNat_readWord : UInt32.toNat <$> readWord = readUInt := by
  unfold readWord readUInt
  rw [map_bind]
  refine bind_congr fun lead => ?_
  by_cases hone : lead < 0x80
  · simp [lead_one, hone]
  by_cases htwo : lead < 0xC0
  · simp [lead_one, lead_two, hone, htwo, toNat_word_two _ hone htwo]
  by_cases hfour : lead < 0xE0
  · simp [lead_one, lead_two, lead_four, hone, htwo, hfour, toNat_word_four _ _ _ htwo hfour]
  · simp [lead_one, lead_two, lead_four, hone, htwo, hfour]
    rfl

/-- A pattern whose lowest bits are free takes a number there as if it were added. -/
theorem or_eq_add {lead number : Nat} (bits : Nat) (hlead : lead % 2 ^ bits = 0)
    (hlt : number < 2 ^ bits) : lead ||| number = lead + number := by
  have hmul : 2 ^ bits * (lead / 2 ^ bits) = lead :=
    Nat.mul_div_cancel' (Nat.dvd_of_mod_eq_zero hlead)
  rw [← hmul, ← Nat.two_pow_add_eq_or_of_lt hlt]

/-- The bound of signed numbers is a power of two, and the bits from there on are dropped. -/
theorem exists_bits {width : Nat} (hwidth : IsWidth width) :
    ∃ bits, signedBound width = 2 ^ bits ∧
      (droppedBits width).toNat = 0x100000000 - signedBound width ∧
      (droppedBits width).toNat % 2 ^ bits = 0 := by
  cases hwidth with
  | one => exact ⟨6, rfl, rfl, rfl⟩
  | two => exact ⟨13, rfl, rfl, rfl⟩
  | four => exact ⟨28, rfl, rfl, rfl⟩

theorem toInt_eq_toNat (bits : BitVec 32) : bits.toInt =
    if bits.toNat < 0x80000000 then (bits.toNat : Int) else (bits.toNat : Int) - 0x100000000 := by
  have hlt := bits.isLt
  rw [BitVec.toInt_eq_toNat_cond]
  split <;> split <;> omega

theorem toInt_toInt32 (word : UInt32) : word.toInt32.toInt =
    if word.toNat < 0x80000000 then (word.toNat : Int) else (word.toNat : Int) - 0x100000000 :=
  toInt_eq_toNat word.toBitVec

/-- With its sign extended, a word is the number whose rotation was read. -/
theorem toInt_extendSign {width : Nat} {code : UInt32} (hwidth : IsWidth width)
    (hlt : code.toNat < 2 * signedBound width) :
    (extendSign width code).toInt = unrotate (signedBound width) code.toNat := by
  obtain ⟨bits, hbits, hdropped, hfree⟩ := exists_bits hwidth
  have hbound := signedBound_le width
  have hhalf : (code >>> 1).toNat = code.toNat / 2 := by
    simp [Nat.shiftRight_eq_div_pow]
  have hodd : code &&& 1 ≠ 0 ↔ code.toNat % 2 = 1 := by
    rw [ne_eq, ← UInt32.toNat_inj]
    simp [Nat.and_one_is_mod]
  unfold extendSign unrotate
  rw [toInt_toInt32]
  by_cases hsign : code.toNat % 2 = 1
  · have hor : (code >>> 1 ||| droppedBits width).toNat =
        (droppedBits width).toNat + code.toNat / 2 := by
      rw [UInt32.toNat_or, hhalf, Nat.or_comm, or_eq_add bits hfree (by omega)]
    rw [if_pos (hodd.mpr hsign), if_pos hsign, hor, if_neg (by omega)]
    omega
  · rw [if_neg (mt hodd.mp hsign), if_neg hsign, hhalf, if_pos (by omega)]

/-- Signed words are read where signed numbers are. -/
theorem toInt_readSignedWord : Int32.toInt <$> readSignedWord = readInt := by
  funext data start
  change (Int32.toInt <$> readSignedWord).runAt data start = readInt.runAt data start
  rw [runAt_map, readInt, readSignedWord]
  simp only [Reader.position, runAt_bind, runAt_get, ← toNat_readWord, runAt_map]
  cases hcode : readWord.runAt data start with
  | ok code stop =>
    have hnumber : readUInt.runAt data start = .ok code.toNat stop := by
      rw [← toNat_readWord, runAt_map, hcode]
    obtain ⟨width, rfl, hwidth, hlt⟩ := spans_readUInt _ _ _ _ hnumber
    simp only [runAt_pure, Nat.add_sub_cancel_left, toInt_extendSign hwidth hlt]
  | error error stop => rfl

/-- Adds the form of a number to a buffer, if it has one. -/
def append : Except Error Bytes → EStateM Error Bytes Unit
  | .ok form => modify (· ++ form)
  | .error error => throw error

/-- Writes an unsigned word to a buffer, with the lead bits set over it. -/
def writeWord (word : UInt32) : EStateM Error Bytes Unit := do
  if word < 0x80 then modify (·.push word.toUInt8)
  else if word < 0x4000 then modify (· ++ Bytes.ofNatBE 2 (0x8000 ||| word).toUInt16.toNat)
  else if word ≤ 0x1FFFFFFF then modify (· ++ Bytes.ofNatBE 4 (0xC0000000 ||| word).toNat)
  else reject (.compressedRange word.toNat)

/-- The bits that a form of some width keeps. -/
def keptBits : (width : Nat) → Int32
  | 1 => 0x3F
  | 2 => 0x1FFF
  | _ => 0x0FFFFFFF

/-- Whether the bits of a word that a form of some width drops are those of its sign. -/
def dropsSign (width : Nat) (word : Int32) : Bool :=
  word &&& ~~~keptBits width == (word >>> 31) &&& ~~~keptBits width

/-- The bits of a word that a form of some width keeps, and its sign below them. -/
def rotateWord (width : Nat) (word : Int32) : UInt32 :=
  (((word &&& keptBits width) <<< 1) ||| ((word >>> 31) &&& 1)).toUInt32

/-- Writes a signed word to a buffer. -/
def writeSignedWord (word : Int32) : EStateM Error Bytes Unit := do
  if dropsSign 1 word then modify (·.push (rotateWord 1 word).toUInt8)
  else if dropsSign 2 word then
    modify (· ++ Bytes.ofNatBE 2 (0x8000 ||| (rotateWord 2 word).toUInt16).toNat)
  else if dropsSign 4 word then
    modify (· ++ Bytes.ofNatBE 4 (0xC0000000 ||| rotateWord 4 word).toNat)
  else reject (.compressedSignedRange word.toInt)

theorem push_eq_append (buffer : Bytes) (word : UInt32) :
    buffer.push word.toUInt8 = buffer ++ Bytes.ofNatBE 1 word.toNat := by
  rw [ofNatBE_one]
  rfl

theorem writeWord_eq (word : UInt32) : writeWord word = append (encodeUInt word.toNat) := by
  unfold writeWord encodeUInt maxUInt
  simp only [UInt32.lt_iff_toNat_lt, UInt32.le_iff_toNat_le, UInt32.reduceToNat]
  by_cases hone : word.toNat < 0x80
  · simp only [if_pos hone, push_eq_append]
    rfl
  by_cases htwo : word.toNat < 0x4000
  · have hform : (0x8000 ||| word).toUInt16.toNat = 0x8000 + word.toNat := by
      have hor : (0x8000 ||| word).toNat = 0x8000 + word.toNat := or_eq_add 14 rfl htwo
      rw [UInt32.toNat_toUInt16, hor]
      omega
    simp only [if_neg hone, if_pos htwo, hform]
    rfl
  by_cases hfour : word.toNat ≤ 0x1FFFFFFF
  · have hform : (0xC0000000 ||| word).toNat = 0xC0000000 + word.toNat :=
      or_eq_add 29 rfl (Nat.lt_succ_of_le hfour)
    simp only [if_neg hone, if_neg htwo, if_pos hfour, hform]
    rfl
  · simp only [if_neg hone, if_neg htwo, if_neg hfour]
    rfl

theorem toNat_and_keptBits {width : Nat} (hwidth : IsWidth width) (bits : BitVec 32) :
    (bits &&& (keptBits width).toBitVec).toNat = bits.toNat % signedBound width := by
  rw [BitVec.toNat_and]
  cases hwidth with
  | one => exact Nat.and_two_pow_sub_one_eq_mod bits.toNat 6
  | two => exact Nat.and_two_pow_sub_one_eq_mod bits.toNat 13
  | four => exact Nat.and_two_pow_sub_one_eq_mod bits.toNat 28

/-- The bits that a mask keeps and those that it drops make up the word. -/
theorem toNat_kept_add_dropped (bits mask : BitVec 32) :
    (bits &&& mask).toNat + (bits &&& ~~~mask).toNat = bits.toNat := by
  have hdisjoint : (bits &&& mask) &&& (bits &&& ~~~mask) = 0#32 := by
    ext i
    simp only [BitVec.getElem_and, BitVec.getElem_not, BitVec.getElem_zero]
    cases bits[i] <;> cases mask[i] <;> rfl
  have hwhole : (bits &&& mask) ||| (bits &&& ~~~mask) = bits := by
    ext i
    simp only [BitVec.getElem_or, BitVec.getElem_and, BitVec.getElem_not]
    cases bits[i] <;> cases mask[i] <;> rfl
  rw [← BitVec.toNat_add_of_and_eq_zero hdisjoint, BitVec.add_eq_or_of_and_eq_zero _ _ hdisjoint,
    hwhole]

/-- All bits of the sign are those of a negative number, or none. -/
theorem toNat_sign (word : Int32) :
    (word >>> 31).toBitVec.toNat = if word.toInt < 0 then 0xFFFFFFFF else 0 := by
  have hsign : (word >>> 31).toBitVec.toInt = word.toInt / 2 ^ 31 := by
    change (word.toBitVec.sshiftRight' _).toInt = _
    rw [BitVec.toInt_sshiftRight', Int.shiftRight_eq_div_pow]
    rfl
  have hlow := word.le_toInt
  have hhigh := word.toInt_lt
  have hlt := (word >>> 31).toBitVec.isLt
  rw [toInt_eq_toNat] at hsign
  split at hsign <;> split <;> omega

/-- A form drops nothing but copies of the sign where the number lies within its bound. -/
theorem dropsSign_eq {width : Nat} (hwidth : IsWidth width) (word : Int32) :
    dropsSign width word = fits (signedBound width) word.toInt := by
  have hword := toNat_kept_add_dropped word.toBitVec (keptBits width).toBitVec
  have hsign := toNat_kept_add_dropped (word >>> 31).toBitVec (keptBits width).toBitVec
  rw [toNat_and_keptBits hwidth] at hword hsign
  have hint := toInt_eq_toNat word.toBitVec
  have hlt := word.toBitVec.isLt
  rw [toNat_sign] at hsign
  have htoInt : word.toBitVec.toInt = word.toInt := rfl
  rw [Bool.eq_iff_iff, fits_iff, dropsSign, beq_iff_eq, ← Int32.toBitVec_inj,
    ← BitVec.toNat_inj, Int32.toBitVec_and, Int32.toBitVec_and, Int32.toBitVec_not]
  cases hwidth <;> simp only [signedBound] at * <;> split at hsign <;> split at hint <;> omega

/-- The bits that are kept do not reach the top of the word, and can be moved up. -/
theorem toNat_kept_shiftLeft {width : Nat} (hwidth : IsWidth width) (word : Int32) :
    ((word &&& keptBits width) <<< 1).toBitVec.toNat =
      (word.toBitVec.toNat % signedBound width) <<< 1 := by
  have hbound := signedBound_le width
  have hpos : 0 < signedBound width := by
    cases hwidth <;> decide
  have hlt := Nat.mod_lt word.toBitVec.toNat hpos
  have hshift : ((word &&& keptBits width) <<< 1).toBitVec.toNat =
      (word.toBitVec &&& (keptBits width).toBitVec).toNat <<< 1 % 0x100000000 := by
    simp
  rw [hshift, toNat_and_keptBits hwidth, Nat.mod_eq_of_lt]
  rw [Nat.shiftLeft_eq]
  omega

/-- A bound divides the number of words, so that a word and its number leave the same remainder. -/
theorem toInt_emod_signedBound {width : Nat} (hwidth : IsWidth width) (word : Int32) :
    word.toInt % (signedBound width : Int) =
      (word.toBitVec.toNat % signedBound width : Nat) := by
  have hint : word.toInt = _ := toInt_eq_toNat word.toBitVec
  cases hwidth <;> simp only [signedBound] <;> split at hint <;> omega

/-- The sign is below the bits that are kept, as it is below a remainder that is doubled. -/
theorem toNat_rotateWord {width : Nat} (hwidth : IsWidth width) (word : Int32) :
    (rotateWord width word).toNat = rotate (signedBound width) word.toInt := by
  have hsign : ((word >>> 31) &&& 1).toBitVec.toNat = if word.toInt < 0 then 1 else 0 := by
    rw [Int32.toBitVec_and, BitVec.toNat_and, toNat_sign]
    split <;> rfl
  have hbit : (if word.toInt < 0 then 1 else 0) < 2 ^ 1 := by
    split <;> decide
  change (((word &&& keptBits width) <<< 1) ||| ((word >>> 31) &&& 1)).toBitVec.toNat = _
  rw [Int32.toBitVec_or, BitVec.toNat_or, toNat_kept_shiftLeft hwidth, hsign,
    ← Nat.shiftLeft_add_eq_or_of_lt hbit, Nat.shiftLeft_eq, rotate, toInt_emod_signedBound hwidth,
    Int.toNat_natCast, Nat.pow_one, Nat.mul_comm]

theorem writeSignedWord_eq (word : Int32) :
    writeSignedWord word = append (encodeInt word.toInt) := by
  have hone : dropsSign 1 word = fits 0x40 word.toInt := dropsSign_eq .one word
  have htwo : dropsSign 2 word = fits 0x2000 word.toInt := dropsSign_eq .two word
  have hfour : dropsSign 4 word = fits 0x10000000 word.toInt := dropsSign_eq .four word
  have hcodeOne : (rotateWord 1 word).toNat = rotate 0x40 word.toInt :=
    toNat_rotateWord .one word
  have hcodeTwo : (rotateWord 2 word).toNat = rotate 0x2000 word.toInt :=
    toNat_rotateWord .two word
  have hcodeFour : (rotateWord 4 word).toNat = rotate 0x10000000 word.toInt :=
    toNat_rotateWord .four word
  unfold writeSignedWord encodeInt
  rw [hone, htwo, hfour]
  by_cases hfitsOne : fits 0x40 word.toInt = true
  · simp only [if_pos hfitsOne, push_eq_append, hcodeOne]
    rfl
  by_cases hfitsTwo : fits 0x2000 word.toInt = true
  · have hlt := rotate_lt hfitsTwo
    have hform : (0x8000 ||| (rotateWord 2 word).toUInt16).toNat =
        0x8000 + rotate 0x2000 word.toInt := by
      have hcode : (rotateWord 2 word).toUInt16.toNat = rotate 0x2000 word.toInt := by
        rw [UInt32.toNat_toUInt16, hcodeTwo]
        omega
      rw [UInt16.toNat_or, hcode]
      exact or_eq_add 14 rfl hlt
    simp only [if_neg hfitsOne, if_pos hfitsTwo, hform]
    rfl
  by_cases hfitsFour : fits 0x10000000 word.toInt = true
  · have hlt := rotate_lt hfitsFour
    have hform : (0xC0000000 ||| rotateWord 4 word).toNat =
        0xC0000000 + rotate 0x10000000 word.toInt := by
      rw [UInt32.toNat_or, hcodeFour]
      exact or_eq_add 29 rfl hlt
    simp only [if_neg hfitsOne, if_neg hfitsTwo, if_pos hfitsFour, hform]
    rfl
  · simp only [if_neg hfitsOne, if_neg hfitsTwo, if_neg hfitsFour]
    rfl

/-- A writer and a reader of words keep to the shortest forms of numbers. They write and read words
as numbers are. A word whose number has a form is written as bytes of the width of the number, which
are added to the buffer and are read back wherever they stand; a word whose number has none is
refused, and the buffer stays as it is; and where a word is read, its number has a form, which is no
longer than the bytes that the word was read from. -/
structure KeepsShortest {α ν : Type} (write : α → EStateM Error Bytes Unit) (read : Reader α)
    (toNumber : α → ν) (encode : ν → Except Error Bytes) (readNumber : Reader ν)
    (hasForm : ν → Prop) (width : ν → Nat) (refusal : ν → Defect) : Prop where
  write_eq : ∀ word, write word = append (encode (toNumber word))
  read_eq : toNumber <$> read = readNumber
  written : ∀ word, hasForm (toNumber word) → ∃ form, form.size = width (toNumber word) ∧
    (∀ buffer, (write word).run buffer = .ok () (buffer ++ form)) ∧
    ∀ before rest, read.runAt (before ++ form ++ rest) before.size =
      .ok word (before.size + width (toNumber word))
  refused : ∀ word, ¬ hasForm (toNumber word) →
    ∀ buffer, (write word).run buffer = .error (.malformed (refusal (toNumber word))) buffer
  shortest : ∀ data start word stop, read.runAt data start = .ok word stop →
    hasForm (toNumber word) ∧ start + width (toNumber word) ≤ stop

/-- Words keep to the shortest forms where the numbers that they stand for do. -/
theorem keepsShortest_of_numbers {α ν : Type} {write : α → EStateM Error Bytes Unit}
    {read : Reader α} {toNumber : α → ν} {encode : ν → Except Error Bytes} {readNumber : Reader ν}
    {hasForm : ν → Prop} {width : ν → Nat} {refusal : ν → Defect}
    (hinjective : Function.Injective toNumber)
    (hwrite : ∀ word, write word = append (encode (toNumber word)))
    (hread : toNumber <$> read = readNumber)
    (hencode : ∀ {number}, hasForm number → ∃ form, encode number = .ok form)
    (hrefused : ∀ {number}, ¬ hasForm number → encode number = reject (refusal number))
    (htakes : ∀ {number form}, encode number = .ok form → readNumber.Takes form number)
    (hsize : ∀ {number form}, encode number = .ok form → form.size = width number)
    (hspans : readNumber.Spans fun size number => hasForm number ∧ width number ≤ size) :
    KeepsShortest write read toNumber encode readNumber hasForm width refusal := by
  have hrun (data : Bytes) (start stop : Nat) (word : α) :
      read.runAt data start = .ok word stop ↔
        readNumber.runAt data start = .ok (toNumber word) stop := by
    rw [← hread, runAt_map]
    cases read.runAt data start with
    | ok found position => simp [hinjective.eq_iff]
    | error error position => simp
  refine ⟨hwrite, hread, fun word hform => ?_, fun word hform buffer => ?_,
    fun data start word stop hword => ?_⟩
  · obtain ⟨form, hform⟩ := hencode hform
    refine ⟨form, hsize hform, fun buffer => ?_, fun before rest => ?_⟩
    · rw [hwrite, hform]
      rfl
    · rw [hrun, ← hsize hform]
      exact htakes hform _ _ ⟨before, rest, rfl, rfl⟩
  · rw [hwrite, hrefused hform]
    rfl
  · obtain ⟨size, rfl, hform, hle⟩ := hspans _ _ _ _ ((hrun _ _ _ _).mp hword)
    exact ⟨hform, Nat.add_le_add_left hle start⟩

theorem encodeUInt_of_gt {value : Nat} (hgt : ¬ value ≤ maxUInt) :
    encodeUInt value = reject (.compressedRange value) := by
  have hmax : ¬ value ≤ 0x1FFFFFFF := hgt
  rw [encodeUInt, if_neg (by omega), if_neg (by omega), if_neg hgt]

theorem encodeInt_of_not_fits {value : Int} (hfits : ¬ fits 0x10000000 value = true) :
    encodeInt value = reject (.compressedSignedRange value) := by
  have hlarge := mt fits_iff.mpr hfits
  have hone : ¬ fits 0x40 value = true := fun hone => by
    have := fits_iff.mp hone
    omega
  have htwo : ¬ fits 0x2000 value = true := fun htwo => by
    have := fits_iff.mp htwo
    omega
  rw [encodeInt, if_neg hone, if_neg htwo, if_neg hfits]

theorem spans_readInt : readInt.Spans fun width value =>
    fits 0x10000000 value = true ∧ signedSize value ≤ width := by
  intro data start value stop hrun
  simp only [readInt, Reader.position, runAt_bind, runAt_get] at hrun
  cases hcode : readUInt.runAt data start with
  | ok code position =>
    obtain ⟨width, rfl, hwidth, hlt⟩ := spans_readUInt _ _ _ _ hcode
    rw [hcode] at hrun
    simp only [runAt_pure, Nat.add_sub_cancel_left] at hrun
    cases hrun
    have hfits := fits_unrotate hlt
    have hle := signedBound_le width
    obtain ⟨hlow, hhigh⟩ := fits_iff.mp hfits
    exact ⟨width, rfl, fits_iff.mpr ⟨by omega, by omega⟩, signedSize_le_of_fits hwidth hfits⟩
  | error error position =>
    rw [hcode] at hrun
    cases hrun

/-- Unsigned and signed words keep to the shortest forms. An unsigned word has a form up to the
largest number of twenty-nine bits, and a signed word within the numbers of twenty-nine bits with
their sign. -/
theorem words_keepShortest :
    KeepsShortest writeWord readWord UInt32.toNat encodeUInt readUInt (· ≤ maxUInt) size
      .compressedRange ∧
    KeepsShortest writeSignedWord readSignedWord Int32.toInt encodeInt readInt
      (fun value => -0x10000000 ≤ value ∧ value < 0x10000000) signedSize
      .compressedSignedRange := by
  constructor
  · refine keepsShortest_of_numbers (fun _ _ => UInt32.toNat_inj.mp) writeWord_eq toNat_readWord
      exists_encodeUInt encodeUInt_of_gt takes_encodeUInt size_encodeUInt
      (spans_readUInt.mono fun width code hcode => ⟨?_, size_le_of_lt hcode.1 hcode.2⟩)
    have hbound := signedBound_le width
    have hlt := hcode.2
    unfold maxUInt
    omega
  · have hfits : (fun value : Int => -0x10000000 ≤ value ∧ value < 0x10000000) =
        fun value => fits 0x10000000 value = true :=
      funext fun _ => propext fits_iff.symm
    rw [hfits]
    exact keepsShortest_of_numbers (fun _ _ => Int32.toInt.inj) writeSignedWord_eq
      toInt_readSignedWord exists_encodeInt encodeInt_of_not_fits takes_encodeInt size_encodeInt
      spans_readInt

example : (writeSignedWord (-0x2000)).run #[7] = .ok () #[7, 0x80, 0x01] := by
  rfl

example : (writeSignedWord (-0x2001)).run #[7] = .ok () #[7, 0xDF, 0xFF, 0xBF, 0xFF] := by
  rfl

end Compressed

end PortablePdb
