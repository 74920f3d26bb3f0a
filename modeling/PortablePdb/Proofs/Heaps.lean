import Std.Data.HashMap.Lemmas
import PortablePdb.Proofs.Compressed
import PortablePdb.Proofs.Runs

namespace PortablePdb

open Reader

/-- If all values are found where they stand, and so is one that goes to the end, then this holds
with that value among the others. -/
theorem found_insert {Value : Type} [BEq Value] [Hashable Value] [LawfulBEq Value]
    [LawfulHashable Value] {stands : Bytes → UInt32 → Value → Prop} {data more : Bytes}
    {lookup : Std.HashMap Value UInt32} {value : Value} {index : UInt32}
    (hgrow : ∀ index value, stands data index value → stands (data ++ more) index value)
    (hfound : ∀ value index, lookup[value]? = some index → stands data index value)
    (hnew : stands (data ++ more) index value) (other : Value) (found : UInt32)
    (hother : (lookup.insert value index)[other]? = some found) :
    stands (data ++ more) found other := by
  rw [Std.HashMap.getElem?_insert] at hother
  split at hother
  · next hsame =>
    cases hother
    exact eq_of_beq hsame ▸ hnew
  · exact hgrow found other (hfound other found hother)

namespace BlobHeap

/-- A blob stands at a position of the data, after its length. -/
def HasBlob (data : Bytes) (index : UInt32) (value : Bytes) : Prop :=
  ∃ form, Compressed.encodeUInt value.size = .ok form ∧ data.HasAt index.toNat (form ++ value)

theorem HasBlob.grow {data value : Bytes} {index : UInt32} (hblob : HasBlob data index value)
    (more : Bytes) : HasBlob (data ++ more) index value := by
  obtain ⟨form, hform, hat⟩ := hblob
  exact ⟨form, hform, hat.grow more⟩

theorem takes_readBlob {value form : Bytes} (hform : Compressed.encodeUInt value.size = .ok form) :
    readBlob.Takes (form ++ value) value :=
  (Compressed.takes_encodeUInt hform).bind (takes_bytes value)

/-- A blob is found where it stands. -/
theorem HasBlob.blobAt_eq {data value : Bytes} {index : UInt32} (hblob : HasBlob data index value) :
    blobAt ⟨data⟩ index.toNat = .ok value := by
  obtain ⟨form, hform, hat⟩ := hblob
  exact (takes_readBlob hform).evalAt_eq hat

theorem hasBlob_empty {data : Bytes} (hdata : data.HasAt 0 #[0]) : HasBlob data 0 #[] :=
  ⟨#[0], rfl, by simpa using hdata⟩

/-- The first blob is the empty one. -/
theorem HasBlob.eq_empty {data value : Bytes} (hblob : HasBlob data 0 value)
    (hdata : data.HasAt 0 #[0]) : value = #[] :=
  Except.ok.inj (hblob.blobAt_eq.symm.trans (hasBlob_empty hdata).blobAt_eq)

/-- A heap under construction looks up blobs where they stand. -/
structure Builder.IsSound (builder : Builder) : Prop where
  empty_at : builder.data.HasAt 0 #[0]
  found : ∀ value index, builder.lookup[value]? = some index → HasBlob builder.data index value

theorem Builder.isSound_empty : Builder.empty.IsSound where
  empty_at := Bytes.hasAt_self #[0]
  found value index hfound := by simp [Builder.empty] at hfound

/-- A blob that is added is empty, or known, or new at the end of the heap. -/
theorem Builder.run_add_cases {builder next : Builder} {value : Bytes} {index : UInt32}
    (hadd : (add value).run builder = .ok index next) :
    value = #[] ∧ index = 0 ∧ next = builder ∨
    value ≠ #[] ∧ builder.lookup[value]? = some index ∧ next = builder ∨
    value ≠ #[] ∧ builder.lookup[value]? = none ∧ index.toNat = builder.data.size ∧
      ∃ form, Compressed.encodeUInt value.size = .ok form ∧
        next = ⟨builder.data ++ (form ++ value), builder.lookup.insert value index⟩ := by
  unfold add at hadd
  split at hadd
  · next hempty =>
    obtain ⟨rfl, rfl⟩ := run_pure_eq_ok_iff.mp hadd
    exact .inl ⟨by simpa using hempty, rfl, rfl⟩
  · next hempty =>
    have hvalue : value ≠ #[] := by simpa using hempty
    obtain ⟨_, _, hget, hadd⟩ := run_bind_eq_ok_iff.mp hadd
    obtain ⟨rfl, rfl⟩ := run_get_eq_ok_iff.mp hget
    split at hadd
    · next found hfound =>
      obtain ⟨rfl, rfl⟩ := run_pure_eq_ok_iff.mp hadd
      exact .inr (.inl ⟨hvalue, hfound, rfl⟩)
    · next hnew =>
      obtain ⟨_, _, hget, hadd⟩ := run_bind_eq_ok_iff.mp hadd
      obtain ⟨rfl, rfl⟩ := run_get_eq_ok_iff.mp hget
      obtain ⟨hposition, hadd⟩ := run_guard_eq_ok_iff.mp hadd
      obtain ⟨_, hadd⟩ := run_guard_eq_ok_iff.mp hadd
      split at hadd
      · next form hform =>
        obtain ⟨_, _, hmodify, hadd⟩ := run_bind_eq_ok_iff.mp hadd
        obtain ⟨rfl, rfl⟩ := run_pure_eq_ok_iff.mp hadd
        have hindex : builder.data.size.toUInt32.toNat = builder.data.size :=
          UInt32.toNat_ofNat_of_lt' (by simp [UInt32.size]; omega)
        refine .inr (.inr ⟨hvalue, Option.not_isSome_iff_eq_none.mp ?_, hindex, form, hform, ?_⟩)
        · exact fun hsome => (Option.isSome_iff_exists.mp hsome).elim hnew
        · rw [← run_modify_eq_ok_iff.mp hmodify, ← Array.append_assoc]
      · exact absurd hadd run_throw_ne_ok

/-- A blob that is added stands at the position that is given for it, and nothing is lost. -/
theorem Builder.run_add {builder next : Builder} {value : Bytes} {index : UInt32}
    (hadd : (add value).run builder = .ok index next) (hsound : builder.IsSound) :
    next.IsSound ∧ (∃ more, next.data = builder.data ++ more) ∧ HasBlob next.data index value := by
  obtain ⟨rfl, rfl, rfl⟩ | ⟨_, hfound, rfl⟩ | ⟨_, _, hindex, form, hform, rfl⟩ :=
    run_add_cases hadd
  · exact ⟨hsound, ⟨#[], by simp⟩, hasBlob_empty hsound.empty_at⟩
  · exact ⟨hsound, ⟨#[], by simp⟩, hsound.found value index hfound⟩
  · have hnew : HasBlob (builder.data ++ (form ++ value)) index value :=
      ⟨form, hform, builder.data, #[], by simp, hindex.symm⟩
    refine ⟨⟨hsound.empty_at.grow _, ?_⟩, ⟨form ++ value, rfl⟩, hnew⟩
    exact found_insert (fun _ _ hblob => hblob.grow _) hsound.found hnew

/-- A heap under construction that holds short blobs in their order. -/
structure Builder.Lists (builder : Builder) (values : List Bytes) : Prop where
  data_eq : builder.data =
    values.foldl (fun data value => data ++ Bytes.ofNatBE 1 value.size ++ value) #[0]
  unknown : ∀ value ∉ values, builder.lookup[value]? = none

theorem Builder.lists_empty : Builder.empty.Lists [] :=
  ⟨rfl, by simp [Builder.empty]⟩

/-- A short blob that is new goes to the end of a heap. -/
theorem Builder.Lists.exists_add {builder : Builder} {values : List Bytes}
    (hlists : builder.Lists values) (value : Bytes) (index : UInt32)
    (hindex : builder.data.size = index.toNat) (hnew : value ∉ values)
    (hvalue : value.isEmpty = false) (hshort : value.size < 0x80) :
    ∃ next, (add value).run builder = .ok index next ∧ next.Lists (values ++ [value]) := by
  have hlt := index.toNat_lt
  have hposition : builder.data.size.toUInt32 = index := by
    apply UInt32.toNat_inj.mp
    rw [hindex]
    simp
  refine ⟨⟨builder.data ++ Bytes.ofNatBE 1 value.size ++ value, builder.lookup.insert value index⟩,
    ?_, ?_, ?_⟩
  · unfold add
    rw [hvalue]
    refine run_bind_eq_ok_iff.mpr ⟨_, _, run_get_eq_ok_iff.mpr ⟨rfl, rfl⟩, ?_⟩
    rw [hlists.unknown value hnew]
    refine run_bind_eq_ok_iff.mpr ⟨_, _, run_get_eq_ok_iff.mpr ⟨rfl, rfl⟩, ?_⟩
    rw [if_neg (by omega), if_neg (by omega), Compressed.encodeUInt, if_pos hshort, hposition]
    rfl
  · rw [List.foldl_append, ← hlists.data_eq]
    rfl
  · intro other hother
    rw [List.mem_append, List.mem_singleton, not_or] at hother
    rw [Std.HashMap.getElem?_insert, if_neg (by simpa using Ne.symm hother.2)]
    exact hlists.unknown other hother.1

end BlobHeap

namespace GuidHeap

/-- An identifier has a number in the data: zero is that of the nil identifier, and the others count
the identifiers of the data from one on. -/
def HasGuid (data : Bytes) (index : UInt32) (guid : Guid) : Prop :=
  index = 0 ∧ guid = Guid.nil ∨
    0 < index.toNat ∧ data.HasAt ((index.toNat - 1) * 16) guid.toBytes

theorem HasGuid.grow {data : Bytes} {index : UInt32} {guid : Guid}
    (hguid : HasGuid data index guid) (more : Bytes) : HasGuid (data ++ more) index guid := by
  rcases hguid with hnil | ⟨hpos, hat⟩
  · exact .inl hnil
  · exact .inr ⟨hpos, hat.grow more⟩

/-- An identifier is found by its number. -/
theorem HasGuid.guidAt_eq {data : Bytes} {index : UInt32} {guid : Guid}
    (hguid : HasGuid data index guid) : guidAt ⟨data⟩ index.toNat = .ok guid := by
  rcases hguid with ⟨rfl, rfl⟩ | ⟨hpos, hat⟩
  · rfl
  · have hle := hat.size_le
    have hextract := hat.extract_eq
    rw [Guid.size_toBytes] at hle hextract
    have hstop : (index.toNat - 1) * 16 + 16 = index.toNat * 16 := by omega
    rw [hstop] at hextract
    unfold guidAt
    rw [if_neg (by omega), if_neg (by simp only [GuidHeap.size]; omega)]
    simp only [hextract, Guid.ofBytes?_toBytes]

/-- A heap under construction looks up identifiers by their numbers. -/
structure Builder.IsSound (builder : Builder) : Prop where
  whole : builder.data.size % 16 = 0
  found : ∀ guid index, builder.lookup[guid]? = some index → HasGuid builder.data index guid

theorem Builder.isSound_empty : Builder.empty.IsSound where
  whole := rfl
  found guid index hfound := by simp [Builder.empty] at hfound

/-- An identifier that is added is nil, or known, or new at the end of the heap. -/
theorem Builder.run_add_cases {builder next : Builder} {value : Guid} {index : UInt32}
    (hadd : (add value).run builder = .ok index next) :
    value = Guid.nil ∧ index = 0 ∧ next = builder ∨
    value ≠ Guid.nil ∧ builder.lookup[value]? = some index ∧ next = builder ∨
    value ≠ Guid.nil ∧ builder.lookup[value]? = none ∧
      index.toNat = builder.data.size / 16 + 1 ∧
      next = ⟨builder.data ++ value.toBytes, builder.lookup.insert value index⟩ := by
  unfold add at hadd
  split at hadd
  · next hnil =>
    obtain ⟨rfl, rfl⟩ := run_pure_eq_ok_iff.mp hadd
    exact .inl ⟨hnil, rfl, rfl⟩
  · next hnil =>
    obtain ⟨_, _, hget, hadd⟩ := run_bind_eq_ok_iff.mp hadd
    obtain ⟨rfl, rfl⟩ := run_get_eq_ok_iff.mp hget
    split at hadd
    · next found hfound =>
      obtain ⟨rfl, rfl⟩ := run_pure_eq_ok_iff.mp hadd
      exact .inr (.inl ⟨hnil, hfound, rfl⟩)
    · next hnew =>
      obtain ⟨_, _, hget, hadd⟩ := run_bind_eq_ok_iff.mp hadd
      obtain ⟨rfl, rfl⟩ := run_get_eq_ok_iff.mp hget
      obtain ⟨hnumber, hadd⟩ := run_guard_eq_ok_iff.mp hadd
      obtain ⟨_, _, hmodify, hadd⟩ := run_bind_eq_ok_iff.mp hadd
      obtain ⟨rfl, rfl⟩ := run_pure_eq_ok_iff.mp hadd
      have hindex : (builder.data.size / 16 + 1).toUInt32.toNat = builder.data.size / 16 + 1 :=
        UInt32.toNat_ofNat_of_lt' (by simp [UInt32.size]; omega)
      refine .inr (.inr ⟨hnil, Option.not_isSome_iff_eq_none.mp ?_, hindex, ?_⟩)
      · exact fun hsome => (Option.isSome_iff_exists.mp hsome).elim hnew
      · exact (run_modify_eq_ok_iff.mp hmodify).symm

/-- An identifier that is added has the number that is given for it, and nothing is lost. -/
theorem Builder.run_add {builder next : Builder} {value : Guid} {index : UInt32}
    (hadd : (add value).run builder = .ok index next) (hsound : builder.IsSound) :
    next.IsSound ∧ (∃ more, next.data = builder.data ++ more) ∧ HasGuid next.data index value := by
  obtain ⟨rfl, rfl, rfl⟩ | ⟨_, hfound, rfl⟩ | ⟨_, _, hindex, rfl⟩ := run_add_cases hadd
  · exact ⟨hsound, ⟨#[], by simp⟩, .inl ⟨rfl, rfl⟩⟩
  · exact ⟨hsound, ⟨#[], by simp⟩, hsound.found value index hfound⟩
  · have hwhole := hsound.whole
    have hnew : HasGuid (builder.data ++ value.toBytes) index value :=
      .inr ⟨by omega, builder.data, #[], by simp, by omega⟩
    refine ⟨⟨?_, ?_⟩, ⟨value.toBytes, rfl⟩, hnew⟩
    · simp only [Array.size_append, Guid.size_toBytes]
      omega
    · exact found_insert (fun _ _ hguid => hguid.grow _) hsound.found hnew

/-- A heap under construction that holds identifiers in their order. -/
structure Builder.Lists (builder : Builder) (values : List Guid) : Prop where
  data_eq : builder.data = values.foldl (fun data value => data ++ value.toBytes) #[]
  unknown : ∀ value ∉ values, builder.lookup[value]? = none

theorem Builder.lists_empty : Builder.empty.Lists [] :=
  ⟨rfl, by simp [Builder.empty]⟩

/-- An identifier that is new goes to the end of a heap. -/
theorem Builder.Lists.exists_add {builder : Builder} {values : List Guid}
    (hlists : builder.Lists values) (value : Guid) (index : UInt32)
    (hindex : builder.data.size / 16 + 1 = index.toNat) (hnew : value ∉ values)
    (hvalue : value ≠ Guid.nil) :
    ∃ next, (add value).run builder = .ok index next ∧ next.Lists (values ++ [value]) := by
  have hlt := index.toNat_lt
  have hnumber : (builder.data.size / 16 + 1).toUInt32 = index := by
    apply UInt32.toNat_inj.mp
    rw [hindex]
    simp
  refine ⟨⟨builder.data ++ value.toBytes, builder.lookup.insert value index⟩, ?_, ?_, ?_⟩
  · unfold add
    rw [if_neg hvalue]
    refine run_bind_eq_ok_iff.mpr ⟨_, _, run_get_eq_ok_iff.mpr ⟨rfl, rfl⟩, ?_⟩
    rw [hlists.unknown value hnew]
    refine run_bind_eq_ok_iff.mpr ⟨_, _, run_get_eq_ok_iff.mpr ⟨rfl, rfl⟩, ?_⟩
    rw [if_neg (by omega), hnumber]
    rfl
  · rw [List.foldl_append, ← hlists.data_eq]
    rfl
  · intro other hother
    rw [List.mem_append, List.mem_singleton, not_or] at hother
    rw [Std.HashMap.getElem?_insert, if_neg (by simpa using Ne.symm hother.2)]
    exact hlists.unknown other hother.1

end GuidHeap

namespace HeapBuilders

/-- All heaps look up values where they stand. -/
structure IsSound (heaps : HeapBuilders) : Prop where
  strings : heaps.strings.data.HasAt 0 #[0]
  blobs : heaps.blobs.IsSound
  guids : heaps.guids.IsSound

theorem isSound_empty : IsSound {} where
  strings := Bytes.hasAt_self #[0]
  blobs := BlobHeap.Builder.isSound_empty
  guids := GuidHeap.Builder.isSound_empty

/-- Heaps that come from others by adding values. -/
structure Extends (after heaps : HeapBuilders) : Prop where
  sound : after.IsSound
  strings : ∃ more, after.strings.data = heaps.strings.data ++ more
  blobs : ∃ more, after.blobs.data = heaps.blobs.data ++ more
  guids : ∃ more, after.guids.data = heaps.guids.data ++ more

variable {heaps middle after : HeapBuilders}

theorem IsSound.extends_self (hsound : heaps.IsSound) : heaps.Extends heaps where
  sound := hsound
  strings := ⟨#[], by simp⟩
  blobs := ⟨#[], by simp⟩
  guids := ⟨#[], by simp⟩

theorem Extends.trans (hafter : after.Extends middle) (hmiddle : middle.Extends heaps) :
    after.Extends heaps where
  sound := hafter.sound
  strings := by
    obtain ⟨first, hfirst⟩ := hmiddle.strings
    obtain ⟨second, hsecond⟩ := hafter.strings
    exact ⟨first ++ second, by rw [hsecond, hfirst, Array.append_assoc]⟩
  blobs := by
    obtain ⟨first, hfirst⟩ := hmiddle.blobs
    obtain ⟨second, hsecond⟩ := hafter.blobs
    exact ⟨first ++ second, by rw [hsecond, hfirst, Array.append_assoc]⟩
  guids := by
    obtain ⟨first, hfirst⟩ := hmiddle.guids
    obtain ⟨second, hsecond⟩ := hafter.guids
    exact ⟨first ++ second, by rw [hsecond, hfirst, Array.append_assoc]⟩

theorem Extends.hasBlob (hafter : after.Extends heaps) {index : UInt32} {value : Bytes}
    (hblob : BlobHeap.HasBlob heaps.blobs.data index value) :
    BlobHeap.HasBlob after.blobs.data index value := by
  obtain ⟨more, hmore⟩ := hafter.blobs
  exact hmore ▸ hblob.grow more

theorem Extends.hasGuid (hafter : after.Extends heaps) {index : UInt32} {guid : Guid}
    (hguid : GuidHeap.HasGuid heaps.guids.data index guid) :
    GuidHeap.HasGuid after.guids.data index guid := by
  obtain ⟨more, hmore⟩ := hafter.guids
  exact hmore ▸ hguid.grow more

/-- An action on the heap of blobs leaves the other heaps as they are. -/
theorem extends_of_blobs {blobs : BlobHeap.Builder} (hheaps : heaps.IsSound)
    (hsound : blobs.IsSound) (hblobs : ∃ more, blobs.data = heaps.blobs.data ++ more) :
    Extends { heaps with blobs } heaps where
  sound := ⟨hheaps.strings, hsound, hheaps.guids⟩
  strings := ⟨#[], by simp⟩
  blobs := hblobs
  guids := ⟨#[], by simp⟩

theorem run_addBlob {value : Bytes} {index : UInt32}
    (hadd : (addBlob value).run heaps = .ok index after) (hsound : heaps.IsSound) :
    after.Extends heaps ∧ BlobHeap.HasBlob after.blobs.data index value := by
  obtain ⟨blobs, hblobs, rfl⟩ := run_onBlobs_eq_ok_iff.mp hadd
  obtain ⟨hnext, hmore, hblob⟩ := BlobHeap.Builder.run_add hblobs hsound.blobs
  exact ⟨extends_of_blobs hsound hnext hmore, hblob⟩

theorem run_addGuid {value : Guid} {index : UInt32}
    (hadd : (addGuid value).run heaps = .ok index after) (hsound : heaps.IsSound) :
    after.Extends heaps ∧ GuidHeap.HasGuid after.guids.data index value := by
  obtain ⟨guids, hguids, rfl⟩ := run_onGuids_eq_ok_iff.mp hadd
  obtain ⟨hnext, hmore, hguid⟩ := GuidHeap.Builder.run_add hguids hsound.guids
  refine ⟨?_, hguid⟩
  exact {
    sound := ⟨hsound.strings, hsound.blobs, hnext⟩
    strings := ⟨#[], by simp⟩
    blobs := ⟨#[], by simp⟩
    guids := hmore }

end HeapBuilders

end PortablePdb
