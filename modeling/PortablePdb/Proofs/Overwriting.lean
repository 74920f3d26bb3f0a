import PortablePdb.Bytes.Index
import PortablePdb.Proofs.Reading

namespace PortablePdb

namespace Bytes

theorem overwrite_append {before old after patch : Bytes} (hsize : patch.size = old.size) :
    overwrite (before ++ (old ++ after)) before.size patch = .ok (before ++ (patch ++ after)) := by
  unfold overwrite
  rw [if_pos (by simp only [Array.size_append]; omega)]
  have hstart : (before ++ (old ++ after)).extract 0 before.size = before := by
    simp [Array.extract_append]
  have hstop : (before ++ (old ++ after)).extract (before.size + patch.size) = after := by
    rw [hsize]
    simp [Array.extract_append]
  rw [hstart, hstop, Array.append_assoc]

/-- A range of the data, with what is before and after it. -/
theorem exists_split {data : Bytes} {position count : Nat} (hle : position + count ≤ data.size) :
    ∃ before old after, data = before ++ (old ++ after) ∧ before.size = position ∧
      old.size = count := by
  refine ⟨data.extract 0 position, data.extract position (position + count),
    data.extract (position + count), ?_, ?_, ?_⟩
  · have hrest : data.extract position (position + count) ++ data.extract (position + count) =
        data.extract position := by
      rw [Array.extract_append_extract]
      congr 1 <;> omega
    rw [hrest, Array.extract_append_extract]
    simp [Nat.max_eq_right (Nat.le_of_add_right_le hle)]
  · simp only [Array.size_extract]
    omega
  · simp only [Array.size_extract]
    omega

/-- Whether data have as many bytes as others, and the same ones outside a range. -/
structure SameOutside (data : Bytes) (start stop : Nat) (after : Bytes) : Prop where
  size_eq : after.size = data.size
  getElem?_eq : ∀ i, i < start ∨ stop ≤ i → after[i]? = data[i]?

theorem SameOutside.widen {start stop farther : Nat} {data after : Bytes}
    (hsame : data.SameOutside start stop after) (hle : stop ≤ farther) :
    data.SameOutside start farther after where
  size_eq := hsame.size_eq
  getElem?_eq i hi := hsame.getElem?_eq i (by omega)

theorem sameOutside_replace {before old new after : Bytes} (hsize : new.size = old.size) :
    (before ++ (old ++ after)).SameOutside before.size (before.size + old.size)
      (before ++ (new ++ after)) where
  size_eq := by simp only [Array.size_append, hsize]
  getElem?_eq i hi := by
    obtain hbefore | hafter := hi
    · rw [Array.getElem?_append_left hbefore, Array.getElem?_append_left hbefore]
    · rw [Array.getElem?_append_right (by omega), Array.getElem?_append_right (by omega),
        Array.getElem?_append_right (by omega), Array.getElem?_append_right (by omega), hsize]

/-- Bytes for which there is room stand where they were written, and no others change. -/
theorem exists_overwrite {data form : Bytes} {position : Nat}
    (hroom : position + form.size ≤ data.size) :
    ∃ written, data.overwrite position form = .ok written ∧ written.HasAt position form ∧
      data.SameOutside position (position + form.size) written := by
  obtain ⟨before, old, after, rfl, rfl, hold⟩ := exists_split hroom
  refine ⟨before ++ (form ++ after), overwrite_append hold.symm,
    ⟨before, after, Array.append_assoc.symm, rfl⟩, ?_⟩
  rw [← hold]
  exact sameOutside_replace hold.symm

theorem overwrite_eq_error {data patch : Bytes} {position : Nat}
    (hshort : data.size < position + patch.size) :
    data.overwrite position patch = .error .outOfBounds :=
  if_neg (Nat.not_le.mpr hshort)

theorem le_size_of_overwrite {data patch written : Bytes} {position : Nat}
    (hwritten : data.overwrite position patch = .ok written) :
    position + patch.size ≤ data.size := by
  obtain hshort | hroom := Nat.lt_or_ge data.size (position + patch.size)
  · cases (overwrite_eq_error hshort).symm.trans hwritten
  · exact hroom

theorem overwrite_empty {data : Bytes} {position : Nat} (hle : position ≤ data.size) :
    data.overwrite position #[] = .ok data := by
  have hroom : position + 0 ≤ data.size := hle
  obtain ⟨before, old, after, rfl, rfl, hold⟩ := exists_split hroom
  rw [Array.eq_empty_of_size_eq_zero hold]
  exact overwrite_append rfl

/-- Bytes may be written in two parts, the second one behind the first. -/
theorem overwrite_parts (data : Bytes) (position : Nat) (first rest : Bytes) :
    data.overwrite position (first ++ rest) =
      data.overwrite position first >>= fun middle =>
        middle.overwrite (position + first.size) rest := by
  obtain hshort | hfirst := Nat.lt_or_ge data.size (position + first.size)
  · rw [overwrite_eq_error hshort, overwrite_eq_error (by rw [Array.size_append]; omega)]
    rfl
  obtain ⟨before, old, after, rfl, rfl, hold⟩ := exists_split hfirst
  have hmiddle : before ++ (first ++ after) = before ++ first ++ after := Array.append_assoc.symm
  rw [overwrite_append hold.symm, ok_bind, hmiddle, ← Array.size_append]
  obtain hshort | hrest := Nat.lt_or_ge after.size rest.size
  · rw [overwrite_eq_error (by simp only [Array.size_append]; omega),
      overwrite_eq_error (by simp only [Array.size_append]; omega)]
  obtain ⟨none, older, later, rfl, hnone, holder⟩ :=
    exists_split (show 0 + rest.size ≤ after.size by omega)
  rw [Array.eq_empty_of_size_eq_zero hnone, Array.empty_append]
  have hboth : old ++ (older ++ later) = old ++ older ++ later := Array.append_assoc.symm
  rw [overwrite_append holder.symm, hboth,
    overwrite_append (by simp only [Array.size_append, hold, holder])]
  simp only [Array.append_assoc]

end Bytes

end PortablePdb
