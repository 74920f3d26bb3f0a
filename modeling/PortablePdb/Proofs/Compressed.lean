import PortablePdb.Bytes.Compressed
import PortablePdb.Proofs.Reading

namespace PortablePdb.Compressed

open Reader

theorem ofNatBE_one (n : Nat) : Bytes.ofNatBE 1 n = #[n.toUInt8] := by
  simp [Bytes.ofNatBE, Bytes.digitsLE]

theorem ofNatBE_two (n : Nat) : Bytes.ofNatBE 2 n = #[(n / 256).toUInt8] ++ #[n.toUInt8] := by
  simp [Bytes.ofNatBE, Bytes.digitsLE]

theorem ofNatBE_four (n : Nat) :
    Bytes.ofNatBE 4 n = #[(n / 256 / 256 / 256).toUInt8] ++ (#[(n / 256 / 256).toUInt8] ++
      (#[(n / 256).toUInt8] ++ #[n.toUInt8])) := by
  simp [Bytes.ofNatBE, Bytes.digitsLE]

private theorem toNat_toUInt8 {n : Nat} : n.toUInt8.toNat = n % 256 := by
  simp

/-- The form of one byte. -/
theorem takes_readUInt_one {value : Nat} (hlt : value < 0x80) :
    readUInt.Takes (Bytes.ofNatBE 1 value) value := by
  have hlead : value.toUInt8.toNat = value := by
    rw [toNat_toUInt8]
    omega
  have hshort : value.toUInt8 < 0x80 := by
    rw [UInt8.lt_iff_toNat_lt, hlead]
    exact hlt
  rw [ofNatBE_one]
  have hread : readUInt.Takes (#[value.toUInt8] ++ #[]) value.toUInt8.toNat := by
    refine (takes_u8 value.toUInt8).bind ?_
    rw [if_pos hshort]
    exact takes_pure _
  rwa [hlead, Array.append_empty] at hread

/-- The form of two bytes. -/
theorem takes_readUInt_two {value : Nat} (hlt : value < 0x4000) :
    readUInt.Takes (Bytes.ofNatBE 2 (0x8000 + value)) value := by
  have hlead : ((0x8000 + value) / 256).toUInt8.toNat = 0x80 + value / 256 := by
    rw [toNat_toUInt8]
    omega
  have hlow : (0x8000 + value).toUInt8.toNat = value % 256 := by
    rw [toNat_toUInt8]
    omega
  have hlong : ¬ ((0x8000 + value) / 256).toUInt8 < 0x80 := by
    rw [UInt8.lt_iff_toNat_lt, hlead]
    change ¬ 0x80 + value / 256 < 0x80
    omega
  have hmiddle : ((0x8000 + value) / 256).toUInt8 < 0xC0 := by
    rw [UInt8.lt_iff_toNat_lt, hlead]
    change 0x80 + value / 256 < 0xC0
    omega
  rw [ofNatBE_two]
  refine (takes_u8 _).bind ?_
  rw [if_neg hlong, if_pos hmiddle]
  have hread := (takes_u8 (0x8000 + value).toUInt8).bind_pure
    (f := fun low => (((0x8000 + value) / 256).toUInt8.toNat - 0x80) * 0x100 + low.toNat)
  have hvalue : (((0x8000 + value) / 256).toUInt8.toNat - 0x80) * 0x100 +
      (0x8000 + value).toUInt8.toNat = value := by
    rw [hlead, hlow]
    omega
  rwa [hvalue] at hread

/-- The form of four bytes. -/
theorem takes_readUInt_four {value : Nat} (hle : value ≤ maxUInt) :
    readUInt.Takes (Bytes.ofNatBE 4 (0xC0000000 + value)) value := by
  have hmax : value ≤ 0x1FFFFFFF := hle
  have hlead : ((0xC0000000 + value) / 256 / 256 / 256).toUInt8.toNat =
      0xC0 + value / 0x1000000 := by
    rw [toNat_toUInt8]
    omega
  have hhigh : ((0xC0000000 + value) / 256 / 256).toUInt8.toNat = value / 0x10000 % 256 := by
    rw [toNat_toUInt8]
    omega
  have hmiddle : ((0xC0000000 + value) / 256).toUInt8.toNat = value / 0x100 % 256 := by
    rw [toNat_toUInt8]
    omega
  have hlow : (0xC0000000 + value).toUInt8.toNat = value % 256 := by
    rw [toNat_toUInt8]
    omega
  generalize hl : ((0xC0000000 + value) / 256 / 256 / 256).toUInt8 = lead at hlead
  generalize hh : ((0xC0000000 + value) / 256 / 256).toUInt8 = high at hhigh
  generalize hm : ((0xC0000000 + value) / 256).toUInt8 = middle at hmiddle
  generalize ho : (0xC0000000 + value).toUInt8 = low at hlow
  have hone : ¬ lead < 0x80 := by
    rw [UInt8.lt_iff_toNat_lt, hlead]
    change ¬ 0xC0 + value / 0x1000000 < 0x80
    omega
  have htwo : ¬ lead < 0xC0 := by
    rw [UInt8.lt_iff_toNat_lt, hlead]
    change ¬ 0xC0 + value / 0x1000000 < 0xC0
    omega
  have hfour : lead < 0xE0 := by
    rw [UInt8.lt_iff_toNat_lt, hlead]
    change 0xC0 + value / 0x1000000 < 0xE0
    omega
  rw [ofNatBE_four, hl, hh, hm, ho]
  refine (takes_u8 lead).bind ?_
  rw [if_neg hone, if_neg htwo, if_pos hfour]
  refine (takes_u8 high).bind ((takes_u8 middle).bind ?_)
  have hread := (takes_u8 low).bind_pure (f := fun low => (lead.toNat - 0xC0) * 0x1000000 +
    high.toNat * 0x10000 + middle.toNat * 0x100 + low.toNat)
  have hvalue : (lead.toNat - 0xC0) * 0x1000000 + high.toNat * 0x10000 + middle.toNat * 0x100 +
      low.toNat = value := by
    omega
  rwa [hvalue] at hread

/-- An unsigned number is read back from its form. -/
theorem takes_encodeUInt {value : Nat} {form : Bytes} (hform : encodeUInt value = .ok form) :
    readUInt.Takes form value := by
  unfold encodeUInt at hform
  split at hform
  · next hlt =>
    cases hform
    exact takes_readUInt_one hlt
  · split at hform
    · next hlt =>
      cases hform
      exact takes_readUInt_two hlt
    · split at hform
      · next hle =>
        cases hform
        exact takes_readUInt_four hle
      · cases hform

/-- The form of an unsigned number has the size that the number tells. -/
theorem size_encodeUInt {value : Nat} {form : Bytes} (hform : encodeUInt value = .ok form) :
    form.size = size value := by
  unfold encodeUInt at hform
  unfold size
  split at hform
  · next hlt =>
    cases hform
    simp [hlt]
  · next hone =>
    split at hform
    · next hlt =>
      cases hform
      simp [hone, hlt]
    · next htwo =>
      split at hform
      · cases hform
        simp [hone, htwo]
      · cases hform

theorem size_pos (value : Nat) : 0 < size value := by
  unfold size
  split
  · omega
  · split <;> omega

theorem size_encodeUInt_pos {value : Nat} {form : Bytes} (hform : encodeUInt value = .ok form) :
    0 < form.size := by
  rw [size_encodeUInt hform]
  exact size_pos value

/-- No unsigned number above the largest has a form. -/
theorem le_of_encodeUInt {value : Nat} {form : Bytes} (hform : encodeUInt value = .ok form) :
    value ≤ maxUInt := by
  unfold maxUInt
  unfold encodeUInt at hform
  split at hform
  · omega
  · split at hform
    · omega
    · split at hform
      · next hle => exact hle
      · cases hform

/-- Every unsigned number up to the largest has a form. -/
theorem exists_encodeUInt {value : Nat} (hle : value ≤ maxUInt) :
    ∃ form, encodeUInt value = .ok form := by
  unfold encodeUInt
  split
  · exact ⟨_, rfl⟩
  · split
    · exact ⟨_, rfl⟩
    · exact ⟨_, rfl⟩

theorem fits_iff {bound : Nat} {value : Int} :
    fits bound value = true ↔ -(bound : Int) ≤ value ∧ value < bound := by
  simp [fits]

theorem rotate_lt {bound : Nat} {value : Int} (hfits : fits bound value = true) :
    rotate bound value < 2 * bound := by
  obtain ⟨hlow, hhigh⟩ := fits_iff.mp hfits
  have hpos : (0 : Int) < bound := by omega
  have hmod := Int.emod_lt_of_pos value hpos
  have hnonneg := Int.emod_nonneg value (by omega : (bound : Int) ≠ 0)
  unfold rotate
  split <;> omega

theorem unrotate_rotate {bound : Nat} {value : Int} (hfits : fits bound value = true) :
    unrotate bound (rotate bound value) = value := by
  obtain ⟨hlow, hhigh⟩ := fits_iff.mp hfits
  unfold unrotate rotate
  by_cases hneg : value < 0
  · have hmod : value % bound = value + bound := by
      rw [← Int.add_emod_right]
      exact Int.emod_eq_of_lt (by omega) (by omega)
    rw [if_pos hneg, hmod]
    have hodd : (2 * (value + bound).toNat + 1) % 2 = 1 := by omega
    rw [if_pos hodd]
    omega
  · have hmod : value % bound = value := Int.emod_eq_of_lt (by omega) hhigh
    rw [if_neg hneg, hmod]
    have heven : ¬ (2 * value.toNat + 0) % 2 = 1 := by omega
    rw [if_neg heven]
    omega

/-- A signed number is read through the unsigned number that stands for it. -/
theorem takes_readInt {code : Nat} {form : Bytes} (hcode : readUInt.Takes form code) :
    readInt.Takes form (unrotate (signedBound form.size) code) := by
  intro data position hform
  have hsize : position + form.size - position = form.size := by omega
  simp only [readInt, Reader.position, runAt_bind, runAt_get, hcode data position hform, runAt_pure,
    hsize]

/-- A signed number is read back from its form. -/
theorem takes_encodeInt {value : Int} {form : Bytes} (hform : encodeInt value = .ok form) :
    readInt.Takes form value := by
  unfold encodeInt at hform
  split at hform
  · next hfits =>
    cases hform
    have hread := takes_readInt (takes_readUInt_one (rotate_lt hfits))
    rwa [Bytes.size_ofNatBE, signedBound, unrotate_rotate hfits] at hread
  · split at hform
    · next hfits =>
      cases hform
      have hread := takes_readInt (takes_readUInt_two (rotate_lt hfits))
      rwa [Bytes.size_ofNatBE, signedBound, unrotate_rotate hfits] at hread
    · split at hform
      · next hfits =>
        cases hform
        have hlt := rotate_lt hfits
        have hle : rotate 0x10000000 value ≤ maxUInt := by
          unfold maxUInt
          omega
        have hread := takes_readInt (takes_readUInt_four hle)
        have hbound : signedBound 4 = 0x10000000 := rfl
        rwa [Bytes.size_ofNatBE, hbound, unrotate_rotate hfits] at hread
      · cases hform

/-- Every signed number within the largest bound has a form. -/
theorem exists_encodeInt {value : Int} (hfits : fits 0x10000000 value = true) :
    ∃ form, encodeInt value = .ok form := by
  unfold encodeInt
  split
  · exact ⟨_, rfl⟩
  · split
    · exact ⟨_, rfl⟩
    · exact ⟨_, rfl⟩

/-- Whatever the bytes, an unsigned number has a form of its own. -/
theorem ensures_readUInt : readUInt.Ensures (· ≤ maxUInt) := by
  have hbyte (byte : UInt8) : byte.toNat < 0x100 := byte.toNat_lt
  have hany := ensures_true u8
  unfold maxUInt
  refine hany.bind fun lead _ => ?_
  split
  · exact ensures_pure (by have := hbyte lead; omega)
  split
  · next hlead =>
    refine hany.bind fun low _ => ensures_pure ?_
    have hlead := UInt8.lt_iff_toNat_lt.mp hlead
    have hlow := hbyte low
    simp only [UInt8.reduceToNat] at hlead
    omega
  split
  · next hlead =>
    refine hany.bind fun high _ => hany.bind fun middle _ => hany.bind fun low _ =>
      ensures_pure ?_
    have hlead := UInt8.lt_iff_toNat_lt.mp hlead
    have hhigh := hbyte high
    have hmiddle := hbyte middle
    have hlow := hbyte low
    simp only [UInt8.reduceToNat] at hlead
    omega
  · exact ensures_throw _

theorem signedBound_le (width : Nat) : signedBound width ≤ 0x10000000 := by
  unfold signedBound
  split <;> omega

/-- Whatever the bytes, a signed number has a form of its own. -/
theorem ensures_readInt :
    readInt.Ensures fun value => -0x10000000 ≤ value ∧ value < 0x10000000 := by
  refine (ensures_true position).bind fun start _ => ensures_readUInt.bind fun code hcode =>
    (ensures_true position).bind fun stop _ => ensures_pure ?_
  have hbound := signedBound_le (stop - start)
  unfold maxUInt at hcode
  unfold unrotate
  split <;> omega

end PortablePdb.Compressed
