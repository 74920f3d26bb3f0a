import PortablePdb.Proofs.Indices

namespace PortablePdb

namespace CodedKind

/-- The tags of custom attributes that stand for the table of an earlier tag. -/
def repeatedTags : List Nat :=
  [1, 2, 4]

/-- A table is found at its place in the list of a kind, unless it stands there for another time. -/
theorem idxOf?_getElem_iff (kind : CodedKind) {tag : Nat} (htag : tag < kind.tables.length) :
    kind.tables.idxOf? kind.tables[tag] = some tag ↔
      ¬ (kind = .customAttributeType ∧ tag ∈ repeatedTags) := by
  cases kind <;> decide +revert

end CodedKind

namespace CodedIndex

variable {kind : CodedKind} {index : CodedIndex} {value : UInt32}

/-- Every table of a kind has a tag. -/
theorem exists_encode (htable : index.table ∈ kind.tables) :
    ∃ value, encode kind index = .ok value := by
  cases htag : kind.tables.idxOf? index.table with
  | some tag => exact ⟨_, by rw [encode, htag]⟩
  | none => exact absurd htable (List.idxOf?_eq_none_iff.mp htag)

/-- What a number stands for: the table of its tag, and the row above the tag. -/
theorem decode_eq_ok (hindex : decode kind value = .ok index) :
    kind.tables[value.toNat % kind.tagSpan]? = some index.table ∧
      index.row.toNat = value.toNat / kind.tagSpan := by
  unfold decode at hindex
  split at hindex
  · next table htable =>
    cases hindex
    refine ⟨htable, UInt32.toNat_ofNat_of_lt' ?_⟩
    exact Nat.lt_of_le_of_lt (Nat.div_le_self _ _) value.toNat_lt
  · cases hindex

/-- A number is written for its reference if its tag is the one that is found for the table. -/
theorem encode_eq_ok_iff (hindex : decode kind value = .ok index) :
    encode kind index = .ok value ↔
      kind.tables.idxOf? index.table = some (value.toNat % kind.tagSpan) := by
  obtain ⟨_, hrow⟩ := decode_eq_ok hindex
  have hparts : value.toNat / kind.tagSpan * kind.tagSpan + value.toNat % kind.tagSpan =
      value.toNat := by
    rw [Nat.mul_comm, Nat.div_add_mod]
  have hfits : value.toNat / kind.tagSpan * kind.tagSpan < 0x100000000 :=
    Nat.lt_of_le_of_lt (Nat.div_mul_le_self _ _) value.toNat_lt
  unfold encode
  rw [hrow]
  cases htag : kind.tables.idxOf? index.table with
  | none => exact ⟨nofun, nofun⟩
  | some tag =>
    rw [Except.ok.injEq, Option.some.injEq, ← UInt32.toNat_inj,
      toNat_number hfits (getElem?_of_idxOf? htag).2]
    omega

/-- A reference to a table of its kind, in a row that fits a token, is the one that its number
stands for. A number is written for the reference it stands for unless it has one of the repeated
tags of custom attributes, so that in all other kinds no two numbers stand for the same reference.
-/
theorem decode_inverts_encode (kind : CodedKind) :
    (∀ index : CodedIndex, index.table ∈ kind.tables → index.row.toNat < 0x1000000 →
      ∃ value, encode kind index = .ok value ∧ decode kind value = .ok index) ∧
    (∀ value index, decode kind value = .ok index →
      (encode kind index = .ok value ↔
        ¬ (kind = .customAttributeType ∧
          value.toNat % kind.tagSpan ∈ CodedKind.repeatedTags))) ∧
    (kind ≠ .customAttributeType → ∀ value other index, decode kind value = .ok index →
      decode kind other = .ok index → value = other) := by
  have hnumber (value : UInt32) (index : CodedIndex) (hindex : decode kind value = .ok index) :
      encode kind index = .ok value ↔ ¬ (kind = .customAttributeType ∧
        value.toNat % kind.tagSpan ∈ CodedKind.repeatedTags) := by
    obtain ⟨htag, htable⟩ := List.getElem?_eq_some_iff.mp (decode_eq_ok hindex).1
    rw [encode_eq_ok_iff hindex, ← htable]
    exact kind.idxOf?_getElem_iff htag
  refine ⟨fun index htable hrow => ?_, hnumber, fun hkind value other index hvalue hother => ?_⟩
  · obtain ⟨value, hvalue⟩ := exists_encode htable
    exact ⟨value, hvalue, decode_encode hrow hvalue⟩
  · have hsame := ((hnumber value index hvalue).mpr fun hboth => hkind hboth.1).symm.trans
      ((hnumber other index hother).mpr fun hboth => hkind hboth.1)
    exact Except.ok.inj hsame

/-- The last row that fits a token, in the last table of the kind with the most tables. -/
theorem decode_inverts_encode_lastRow : ∃ value,
    encode .hasCustomDebugInformation ⟨.importScope, 0xFFFFFF⟩ = .ok value ∧
      decode .hasCustomDebugInformation value = .ok ⟨.importScope, 0xFFFFFF⟩ ∧
      ∀ other, decode .hasCustomDebugInformation other = .ok ⟨.importScope, 0xFFFFFF⟩ →
        value = other := by
  obtain ⟨hencode, _, hinjective⟩ := decode_inverts_encode .hasCustomDebugInformation
  obtain ⟨value, hvalue, hindex⟩ := hencode ⟨.importScope, 0xFFFFFF⟩ (by decide) (by decide)
  exact ⟨value, hvalue, hindex, fun other hother => hinjective (by decide) _ _ _ hindex hother⟩

/-- The number 9 has the second tag of the methods, and the number that is written for its reference
has the first. -/
theorem decode_repeatedTag :
    decode .customAttributeType 9 = .ok ⟨.methodDef, 1⟩ ∧
      encode .customAttributeType ⟨.methodDef, 1⟩ = .ok 8 ∧
      decode .customAttributeType 8 = .ok ⟨.methodDef, 1⟩ :=
  ⟨rfl, rfl, rfl⟩

end CodedIndex

end PortablePdb
