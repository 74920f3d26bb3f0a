import Mathlib.Algebra.Group.Nat.Defs
import PortablePdb.Deflate.Inflate
import PortablePdb.Proofs.Reading

namespace PortablePdb.Deflate

namespace Bits

variable {α β : Type} {stream : Bytes} {position middle stop : Nat}

/-- From a position of the stream, a reader gives a value and stops at another position. -/
def Gives (reader : Bits α) (stream : Bytes) (position : Nat) (value : α) (stop : Nat) : Prop :=
  (reader.run stream).run position = some (value, stop)

theorem Gives.bind {reader : Bits α} {rest : α → Bits β} {a : α} {b : β}
    (hreader : reader.Gives stream position a middle)
    (hrest : (rest a).Gives stream middle b stop) :
    (reader >>= rest).Gives stream position b stop := by
  unfold Gives at *
  rw [ReaderT.run_bind, StateT.run_bind, hreader]
  exact hrest

theorem gives_pure (value : α) : (pure value : Bits α).Gives stream position value position :=
  rfl

theorem gives_get : (get : Bits Nat).Gives stream position position position :=
  rfl

theorem gives_read : (read : Bits Bytes).Gives stream position stream position :=
  rfl

theorem gives_set (target : Nat) : (set target : Bits Unit).Gives stream position () target :=
  rfl

theorem gives_bit {index : Nat} {byte : UInt8} (hbyte : stream[index]? = some byte) {offset : Nat}
    (hoffset : offset < 8) :
    bit.Gives stream (8 * index + offset) (byte.toNat >>> offset % 2) (8 * index + offset + 1) := by
  have hindex : (8 * index + offset) / 8 = index := by omega
  have hrest : (8 * index + offset) % 8 = offset := by omega
  refine gives_get.bind (gives_read.bind ?_)
  rw [hindex, hbyte, hrest]
  exact (gives_set _).bind (gives_pure _)

/-- Bits within one byte. -/
theorem gives_bits_byte {index : Nat} {byte : UInt8} (hbyte : stream[index]? = some byte)
    {count offset : Nat} (hfits : offset + count ≤ 8) :
    (bits count).Gives stream (8 * index + offset) (byte.toNat >>> offset % 2 ^ count)
      (8 * index + offset + count) := by
  induction count generalizing offset with
  | zero =>
    rw [Nat.pow_zero, Nat.mod_one]
    exact gives_pure 0
  | succ count ih =>
    have hlow := gives_bit hbyte (show offset < 8 by omega)
    have hhigh := ih (show offset + 1 + count ≤ 8 by omega)
    have hsplit : byte.toNat >>> offset % 2 ^ (count + 1) =
        byte.toNat >>> offset % 2 + 2 * (byte.toNat >>> (offset + 1) % 2 ^ count) := by
      rw [Nat.shiftRight_succ, Nat.pow_succ', Nat.mod_mul]
    have hstop : 8 * index + offset + (count + 1) = 8 * index + (offset + 1) + count := by omega
    rw [hsplit, hstop]
    exact hlow.bind (hhigh.bind (gives_pure _))

/-- Bits that start within a byte and go on behind it. -/
theorem gives_bits_across {index : Nat} {byte : UInt8} (hbyte : stream[index]? = some byte)
    {more high : Nat} (hhigh : (bits more).Gives stream (8 * (index + 1)) high stop)
    {count offset : Nat} (hfirst : offset + count = 8) :
    (bits (count + more)).Gives stream (8 * index + offset)
      (byte.toNat >>> offset % 2 ^ count + 2 ^ count * high) stop := by
  induction count generalizing offset with
  | zero =>
    have hstart : 8 * index + offset = 8 * (index + 1) := by omega
    rw [hstart, Nat.pow_zero, Nat.mod_one, Nat.zero_add, Nat.zero_add, Nat.one_mul]
    exact hhigh
  | succ count ih =>
    have hlow := gives_bit hbyte (show offset < 8 by omega)
    have hrest := ih (show offset + 1 + count = 8 by omega)
    have hsplit : byte.toNat >>> offset % 2 ^ (count + 1) + 2 ^ (count + 1) * high =
        byte.toNat >>> offset % 2 +
          2 * (byte.toNat >>> (offset + 1) % 2 ^ count + 2 ^ count * high) := by
      rw [Nat.shiftRight_succ, Nat.pow_succ', Nat.mod_mul, Nat.mul_add, Nat.mul_assoc,
        Nat.add_assoc]
    have hcount : count + 1 + more = count + more + 1 := by omega
    rw [hsplit, hcount]
    exact hlow.bind (hrest.bind (gives_pure _))

/-- A 16-bit number that starts at a byte. -/
theorem gives_bits_le16 {index value : Nat} (hvalue : value < 0x10000)
    (hat : stream.HasAt index (Bytes.ofNatLE 2 value)) :
    (bits 16).Gives stream (8 * index) value (8 * (index + 2)) := by
  have hform : Bytes.ofNatLE 2 value = #[value.toUInt8, (value / 256).toUInt8] := by
    simp [Bytes.ofNatLE, Bytes.digitsLE]
  rw [hform] at hat
  have hfirst : stream[index]? = some value.toUInt8 := hat.getElem?_eq 0 rfl
  have hsecond : stream[index + 1]? = some (value / 256).toUInt8 := hat.getElem?_eq 1 rfl
  have hhigh := gives_bits_byte hsecond (show 0 + 8 ≤ 8 by omega)
  have hboth := gives_bits_across hfirst hhigh (show 0 + 8 = 8 by omega)
  have hnumber : value.toUInt8.toNat >>> 0 % 2 ^ 8 +
      2 ^ 8 * ((value / 256).toUInt8.toNat >>> 0 % 2 ^ 8) = value := by
    simp only [Nat.shiftRight_zero, Nat.toUInt8_eq, UInt8.toNat_ofNat']
    omega
  rw [hnumber] at hboth
  exact hboth

theorem gives_skipToByte {index offset : Nat} (hoffset : 0 < offset) (hfits : offset ≤ 8) :
    skipToByte.Gives stream (8 * index + offset) () (8 * (index + 1)) := by
  have hnext : (8 * index + offset + 7) / 8 * 8 = 8 * (index + 1) := by omega
  rw [← hnext]
  rfl

theorem gives_wholeBytes {index : Nat} {form : Bytes} (hat : stream.HasAt index form) :
    (wholeBytes form.size).Gives stream (8 * index) form (8 * (index + form.size)) := by
  have hle := hat.size_le
  have hstart : 8 * index / 8 = index := by omega
  refine gives_read.bind (gives_get.bind ?_)
  rw [hstart, if_neg (by omega), hat.extract_eq]
  exact (gives_set _).bind (gives_pure _)

end Bits

open Bits

/-- A block of stored bytes is read as these bytes, and its mark as it is. -/
theorem gives_storedBlock {stream data : Bytes} (out : Bytes) {index : Nat} {isLast : Bool}
    (hsize : data.size ≤ maxStored) (hat : stream.HasAt index (storedBlock isLast data)) :
    bit.Gives stream (8 * index) (if isLast then 1 else 0) (8 * index + 1) ∧
      (readBlock out).Gives stream (8 * index + 1) (out ++ data)
        (8 * (index + (storedBlock isLast data).size)) := by
  simp only [maxStored] at hsize
  have hmark : stream[index]? = some (if isLast then 1 else 0) :=
    hat.left.left.left.getElem?_eq 0 rfl
  have hcount : stream.HasAt (index + 1) (Bytes.ofNatLE 2 data.size) := hat.left.left.right
  have hcheck : stream.HasAt (index + 3) (Bytes.ofNatLE 2 (0xFFFF - data.size)) := hat.left.right
  have hdata : stream.HasAt (index + 5) data := hat.right
  have hlast := gives_bit hmark (show 0 < 8 by omega)
  have hkind := gives_bits_byte hmark (show 1 + 2 ≤ 8 by omega)
  have hlastValue : (if isLast then (1 : UInt8) else 0).toNat >>> 0 % 2 =
      if isLast then 1 else 0 := by
    cases isLast <;> rfl
  have hkindValue : (if isLast then (1 : UInt8) else 0).toNat >>> 1 % 2 ^ 2 = 0 := by
    cases isLast <;> rfl
  rw [hlastValue] at hlast
  rw [hkindValue] at hkind
  refine ⟨hlast, gives_read.bind (hkind.bind ?_)⟩
  have hsum : ¬ (data.size + (0xFFFF - data.size) ≠ 0xFFFF) := by omega
  have hstop : 8 * (index + (storedBlock isLast data).size) = 8 * (index + 5 + data.size) := by
    simp only [storedBlock, Array.size_append, Bytes.size_ofNatLE, List.size_toArray,
      List.length_singleton]
    omega
  rw [hstop]
  refine (gives_skipToByte (show 0 < 3 by omega) (show 3 ≤ 8 by omega)).bind ?_
  refine (gives_bits_le16 (by omega) hcount).bind ?_
  refine (gives_bits_le16 (by omega) hcheck).bind ?_
  rw [if_neg hsum]
  exact (gives_wholeBytes hdata).bind (gives_pure _)

/-- The blocks from a position of the data on are read as the bytes from there on. -/
theorem gives_storedBlocks {stream data : Bytes} {position fuel index : Nat} (out : Bytes)
    (hfuel : (storedBlocks data position).size ≤ fuel)
    (hat : stream.HasAt index (storedBlocks data position)) :
    (readBlocks fuel out).Gives stream (8 * index) (out ++ data.extract position)
      (8 * (index + (storedBlocks data position).size)) := by
  -- Each block takes at least one byte, so fuel for all bytes is fuel for all blocks.
  induction fuel generalizing position index out with
  | zero =>
    rw [storedBlocks] at hfuel
    split at hfuel <;> simp [storedBlock] at hfuel
  | succ fuel ih =>
    rw [storedBlocks] at hfuel hat ⊢
    by_cases hlast : data.size ≤ position + maxStored
    · rw [if_pos hlast] at hfuel hat ⊢
      have hsize : (data.extract position).size ≤ maxStored := by
        rw [Array.size_extract]
        omega
      obtain ⟨hmark, hblock⟩ := gives_storedBlock out hsize hat
      exact hmark.bind (hblock.bind (gives_pure _))
    · rw [if_neg hlast] at hfuel hat ⊢
      have hsize : (data.extract position (position + maxStored)).size ≤ maxStored := by
        rw [Array.size_extract]
        omega
      obtain ⟨hmark, hblock⟩ := gives_storedBlock out hsize hat.left
      have hrest : (storedBlocks data (position + maxStored)).size ≤ fuel := by
        rw [Array.size_append] at hfuel
        have hpos : 0 < (storedBlock false
            (data.extract position (position + maxStored))).size := by
          simp only [storedBlock, Array.size_append, List.size_toArray, List.length_singleton]
          omega
        omega
      have hnext := ih (out ++ data.extract position (position + maxStored)) hrest hat.right
      have hextract : out ++ data.extract position (position + maxStored) ++
          data.extract (position + maxStored) = out ++ data.extract position := by
        rw [Array.append_assoc, Array.extract_append_extract]
        congr 1
        simp only [maxStored] at *
        congr 1 <;> omega
      rw [hextract, Nat.add_assoc, ← Array.size_append] at hnext
      exact hmark.bind (hblock.bind hnext)

/-- A compressor makes streams that give back what went into them. The stream of an empty text is
stored without a size, as if it were the text itself, so that it has to be some text. -/
structure IsCompressor (compress : Bytes → Bytes) : Prop where
  inflate?_eq : ∀ data, inflate? (compress data) = some data
  empty_isText : ∃ text, (compress #[]).toText? = some text

theorem isCompressor_deflate : IsCompressor deflate where
  inflate?_eq data := by
    unfold deflate
    by_cases hempty : data.isEmpty = true
    · obtain rfl : data = #[] := by simpa using hempty
      decide +kernel
    · rw [if_neg hempty]
      have hfuel : (storedBlocks data 0).size ≤ 8 * (storedBlocks data 0).size + 1 := by omega
      have hread := gives_storedBlocks #[] hfuel (Bytes.hasAt_self _)
      unfold inflate?
      unfold Gives at hread
      rw [hread]
      simp
  empty_isText := ⟨_, Bytes.toText?_ofText "\x03\x00"⟩

/-- Even an empty text has a stream with a block. -/
theorem IsCompressor.ne_empty {compress : Bytes → Bytes} (hcompress : IsCompressor compress)
    {text : String} (htext : (compress #[]).toText? = some text) : text ≠ "" := by
  rintro rfl
  have hstream := hcompress.inflate?_eq #[]
  rw [← Bytes.ofText_of_toText? htext] at hstream
  exact absurd hstream (by decide)

end PortablePdb.Deflate
