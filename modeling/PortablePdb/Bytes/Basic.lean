namespace PortablePdb

/-- A sequence of bytes. -/
abbrev Bytes := Array UInt8

namespace Bytes

/-- A number of zero bytes. -/
def zeros (count : Nat) : Bytes :=
  Array.replicate count 0

/-- The next multiple of four. -/
def align4 (size : Nat) : Nat :=
  (size + 3) / 4 * 4

/-- Zeros are added up to a multiple of four bytes. -/
def pad4 (data : Bytes) : Bytes :=
  data ++ zeros (align4 data.size - data.size)

/-- The bytes of a text in UTF-8. -/
def ofText (text : String) : Bytes :=
  text.toUTF8.data

/-- The text whose UTF-8 form the bytes are, if there is one. -/
def toText? (data : Bytes) : Option String :=
  String.fromUTF8? ⟨data⟩

/-- The number whose digits in base 256 are the bytes, least significant first. -/
def natLE (data : Bytes) : Nat :=
  data.toList.foldr (fun b n => b.toNat + 256 * n) 0

/-- The number whose digits in base 256 are the bytes, most significant first. -/
def natBE (data : Bytes) : Nat :=
  data.toList.foldl (fun n b => 256 * n + b.toNat) 0

/-- The lowest `width` digits of a number in base 256, least significant first. -/
def digitsLE : (width : Nat) → Nat → List UInt8
  | 0, _ => []
  | width + 1, n => n.toUInt8 :: digitsLE width (n / 256)

/-- How many numbers there are with `width` digits in base 256. -/
def capacity : (width : Nat) → Nat
  | 0 => 1
  | width + 1 => 256 * capacity width

/-- A number in `width` bytes, least significant first. -/
def ofNatLE (width n : Nat) : Bytes :=
  (digitsLE width n).toArray

/-- A number in `width` bytes, most significant first. -/
def ofNatBE (width n : Nat) : Bytes :=
  (digitsLE width n).reverse.toArray

/-- A 16-bit word, low byte first. -/
def le16 (value : UInt16) : Bytes :=
  ofNatLE 2 value.toNat

/-- A 32-bit word, low byte first. -/
def le32 (value : UInt32) : Bytes :=
  ofNatLE 4 value.toNat

/-- A 64-bit word, low byte first. -/
def le64 (value : UInt64) : Bytes :=
  ofNatLE 8 value.toNat

theorem length_digitsLE (width n : Nat) : (digitsLE width n).length = width := by
  induction width generalizing n with
  | zero => rfl
  | succ width ih => simp [digitsLE, ih]

@[simp] theorem size_ofNatLE (width n : Nat) : (ofNatLE width n).size = width := by
  simp [ofNatLE, length_digitsLE]

@[simp] theorem size_ofNatBE (width n : Nat) : (ofNatBE width n).size = width := by
  simp [ofNatBE, length_digitsLE]

theorem foldr_digitsLE (width n : Nat) :
    (digitsLE width n).foldr (fun b m => b.toNat + 256 * m) 0 = n % capacity width := by
  induction width generalizing n with
  | zero => simp [digitsLE, capacity, Nat.mod_one]
  | succ width ih =>
    simp only [digitsLE, List.foldr_cons, ih, Nat.toUInt8_eq, UInt8.toNat_ofNat']
    rw [capacity, Nat.mod_mul]

theorem natLE_ofNatLE (width n : Nat) : natLE (ofNatLE width n) = n % capacity width := by
  simp [natLE, ofNatLE, foldr_digitsLE]

theorem natBE_ofNatBE (width n : Nat) : natBE (ofNatBE width n) = n % capacity width := by
  simp only [natBE, ofNatBE, List.foldl_reverse]
  rw [← foldr_digitsLE]
  congr 1
  funext b m
  omega

@[simp] theorem size_zeros (count : Nat) : (zeros count).size = count := by
  simp [zeros]

theorem le_align4 (size : Nat) : size ≤ align4 size := by
  simp only [align4]
  omega

theorem align4_mod (size : Nat) : align4 size % 4 = 0 :=
  Nat.mul_mod_left _ 4

@[simp] theorem size_pad4 (data : Bytes) : (pad4 data).size = align4 data.size := by
  have hsize := le_align4 data.size
  simp only [pad4, Array.size_append, size_zeros]
  omega

end Bytes

end PortablePdb
