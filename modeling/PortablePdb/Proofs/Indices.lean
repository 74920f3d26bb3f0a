import PortablePdb.Metadata.CodedIndex
import PortablePdb.Proofs.Reading

namespace PortablePdb

namespace Index

variable {wide : Bool} {value : UInt32} {form : Bytes}

/-- An index is read back from its column. -/
theorem takes_encode (hform : encode wide value = .ok form) : (read wide).Takes form value := by
  unfold encode at hform
  cases wide with
  | true =>
    cases hform
    exact Reader.takes_le32 value
  | false =>
    rw [if_neg (by simp)] at hform
    split at hform
    · next hle =>
      cases hform
      have hnat : value.toNat < 0x10000 := by
        have hle := UInt32.le_iff_toNat_le.mp hle
        simp only [UInt32.reduceToNat] at hle
        omega
      have hsame : value.toUInt16.toUInt32 = value := by
        rw [← UInt32.toNat_inj]
        simpa using Nat.mod_eq_of_lt hnat
      have hread := (Reader.takes_le16 value.toUInt16).bind_pure (f := UInt16.toUInt32)
      rwa [hsame] at hread
    · cases hform

theorem size_encode (hform : encode wide value = .ok form) : form.size = width wide := by
  unfold encode at hform
  cases wide with
  | true =>
    cases hform
    exact Bytes.size_ofNatLE 4 _
  | false =>
    rw [if_neg (by simp)] at hform
    split at hform
    · cases hform
      exact Bytes.size_ofNatLE 2 _
    · cases hform

theorem two_le_width (wide : Bool) : 2 ≤ width wide := by
  cases wide <;> decide

end Index

namespace Layout

theorem isLarge_iff (layout : Layout) (table : Table) :
    layout.isLarge table = true ↔ 0x10000 ≤ (layout.rows.ofTable table).toNat := by
  simp only [isLarge, decide_eq_true_eq, UInt32.lt_iff_toNat_lt, UInt32.reduceToNat]
  omega

/-- A table is large if its row numbers take more than 16 bits. -/
theorem lt_rowBits_iff (layout : Layout) (table : Table) :
    16 < layout.rowBits table ↔ layout.isLarge table = true := by
  rw [isLarge_iff]
  simp only [rowBits]
  by_cases hzero : (layout.rows.ofTable table).toNat = 0
  · rw [if_pos hzero]
    omega
  · rw [if_neg hzero]
    have hlog := Nat.le_log2 (k := 16) hzero
    omega

/-- The width of a reference to a table is that of an index into a large or small table. -/
theorem rowIndexBytes_eq (layout : Layout) (table : Table) :
    layout.rowIndexBytes table = Index.width (layout.isLarge table) := by
  simp only [rowIndexBytes, Index.width, lt_rowBits_iff]

end Layout

namespace CodedIndex

variable {kind : CodedKind} {index : CodedIndex}

theorem tagSpan_le (kind : CodedKind) : kind.tagSpan ≤ 32 := by
  cases kind <;> decide

theorem tagSpan_pos (kind : CodedKind) : 0 < kind.tagSpan := by
  cases kind <;> decide

/-- A tag fits below any row that fits above it. -/
theorem toNat_number {row tag : Nat} (hrow : row * kind.tagSpan < 0x100000000)
    (htag : tag < kind.tagSpan) :
    (row * kind.tagSpan + tag).toUInt32.toNat = row * kind.tagSpan + tag := by
  obtain ⟨rows, hrows⟩ : kind.tagSpan ∣ 0x100000000 := by cases kind <;> decide
  have hlt : row < rows := by
    rw [hrows, Nat.mul_comm row] at hrow
    exact Nat.lt_of_mul_lt_mul_left hrow
  refine UInt32.toNat_ofNat_of_lt' ?_
  calc row * kind.tagSpan + tag
      < (row + 1) * kind.tagSpan := by
        rw [Nat.succ_mul]
        omega
    _ ≤ rows * kind.tagSpan := Nat.mul_le_mul_right _ hlt
    _ = 0x100000000 := by rw [hrows, Nat.mul_comm]

/-- The tag that is found for a table is its place in the list of the kind. -/
theorem getElem?_of_idxOf? {tag : Nat} (htag : kind.tables.idxOf? index.table = some tag) :
    kind.tables[tag]? = some index.table ∧ tag < kind.tagSpan := by
  obtain ⟨hlt, heq, _⟩ := List.findIdx?_eq_some_iff_getElem.mp htag
  rw [List.getElem?_eq_getElem hlt]
  exact ⟨congrArg some (eq_of_beq heq), Nat.lt_of_lt_of_le hlt kind.length_tables_le⟩

/-- A reference whose row fits a token is the one that its number stands for. -/
theorem decode_encode {value : UInt32} (hrow : index.row.toNat < 0x1000000)
    (hvalue : encode kind index = .ok value) : decode kind value = .ok index := by
  unfold encode at hvalue
  split at hvalue
  · next tag htag =>
    cases hvalue
    obtain ⟨htable, hspan⟩ := getElem?_of_idxOf? htag
    have hfits : index.row.toNat * kind.tagSpan < 0x100000000 := by
      have hle := Nat.mul_le_mul_left index.row.toNat (tagSpan_le kind)
      omega
    have hmod : (index.row.toNat * kind.tagSpan + tag) % kind.tagSpan = tag := by
      rw [Nat.mul_comm, Nat.mul_add_mod]
      exact Nat.mod_eq_of_lt hspan
    have hdiv : (index.row.toNat * kind.tagSpan + tag) / kind.tagSpan = index.row.toNat := by
      rw [Nat.mul_comm, Nat.mul_add_div (tagSpan_pos kind), Nat.div_eq_of_lt hspan, Nat.add_zero]
    rw [decode, toNat_number hfits hspan, hmod, hdiv, htable]
    simp
  · cases hvalue

theorem takes_encodeColumn {layout : Layout} {form : Bytes} (hrow : index.row.toNat < 0x1000000)
    (hform : index.encodeColumn layout kind = .ok form) :
    (read layout kind).Takes form index := by
  obtain ⟨value, hvalue, hform⟩ := bind_eq_ok_iff.mp hform
  have hread : (read layout kind).Takes (form ++ #[]) index := by
    refine (Index.takes_encode hform).bind ?_
    rw [decode_encode hrow hvalue]
    exact Reader.takes_pure index
  rwa [Array.append_empty] at hread

theorem size_encodeColumn {layout : Layout} {form : Bytes}
    (hform : index.encodeColumn layout kind = .ok form) :
    form.size = layout.codedIndexBytes kind := by
  obtain ⟨value, _, hform⟩ := bind_eq_ok_iff.mp hform
  exact Index.size_encode hform

end CodedIndex

end PortablePdb
