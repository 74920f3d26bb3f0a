import Mathlib.Order.Defs.Unbundled
import PortablePdb.Proofs.Builder

namespace PortablePdb

/-- Whatever comes of an action, it moves its state within a relation, and it fails only with errors
of some kind. -/
def Confined {ε σ α : Type} (moves : σ → σ → Prop) (fails : ε → Prop) (action : EStateM ε σ α) :
    Prop :=
  ∀ state, match action.run state with
    | .ok _ after => moves state after
    | .error error after => moves state after ∧ fails error

namespace Confined

variable {ε σ α β : Type} {moves : σ → σ → Prop} {fails : ε → Prop} {action : EStateM ε σ α}
  {state after : σ}

theorem moves_of_ok (haction : Confined moves fails action) {a : α}
    (hrun : action.run state = .ok a after) : moves state after := by
  have hstate := haction state
  rwa [hrun] at hstate

theorem of_error (haction : Confined moves fails action) {error : ε}
    (hrun : action.run state = .error error after) : moves state after ∧ fails error := by
  have hstate := haction state
  rwa [hrun] at hstate

variable [IsPreorder σ moves]

theorem bind {rest : α → EStateM ε σ β} (haction : Confined moves fails action)
    (hrest : ∀ a, Confined moves fails (rest a)) : Confined moves fails (action >>= rest) := by
  intro state
  rw [EStateM.run_bind]
  cases hrun : action.run state with
  | error error after => exact haction.of_error hrun
  | ok a middle =>
    have hfirst := haction.moves_of_ok hrun
    dsimp only
    cases hlast : (rest a).run middle with
    | ok b after => exact IsTrans.trans _ _ _ hfirst ((hrest a).moves_of_ok hlast)
    | error error after =>
      obtain ⟨hmoves, hfails⟩ := (hrest a).of_error hlast
      exact ⟨IsTrans.trans _ _ _ hfirst hmoves, hfails⟩

theorem pure (a : α) : Confined moves fails (Pure.pure a : EStateM ε σ α) :=
  fun state => refl_of moves state

/-- An action that leaves its state as it is when it fails. -/
theorem of_unchanged (hok : ∀ state a after, action.run state = .ok a after → moves state after)
    (herror : ∀ state error after, action.run state = .error error after →
      after = state ∧ fails error) : Confined moves fails action := by
  intro state
  cases hrun : action.run state with
  | ok a after => exact hok state a after hrun
  | error error after =>
    obtain ⟨rfl, hfails⟩ := herror state error after hrun
    exact ⟨refl_of moves after, hfails⟩

end Confined

/-- Bytes only go to the end, and what was sound stays sound. -/
def GrowsAs {β : Type} (data : β → Bytes) (sound : β → Prop) (before after : β) : Prop :=
  sound before → sound after ∧ ∃ more, data after = data before ++ more

instance {β : Type} (data : β → Bytes) (sound : β → Prop) :
    IsPreorder β (GrowsAs data sound) where
  refl _ hsound := ⟨hsound, #[], by simp⟩
  trans _ _ _ hfirst hsecond hsound := by
    obtain ⟨hmiddle, more, hmore⟩ := hfirst hsound
    obtain ⟨hlast, rest, hrest⟩ := hsecond hmiddle
    exact ⟨hlast, more ++ rest, by rw [hrest, hmore, Array.append_assoc]⟩

/-- Whether there was no room for something: a value, a heap or a table would become too large. -/
def Error.isTooLarge : Error → Bool
  | .malformed (.compressedRange _) | .malformed .blobHeapSize | .malformed (.blobSize _)
  | .malformed .stringsHeapSize | .malformed .guidHeapSize | .malformed .rowRange => true
  | _ => false

/-- Whether a text was refused because of a zero byte in it. -/
def Error.isZeroByte : Error → Bool
  | .malformed (.nulInString _) => true
  | _ => false

theorem Error.isZeroByte_eq_false {error : Error} (hlarge : error.isTooLarge = true) :
    error.isZeroByte = false := by
  unfold isTooLarge at hlarge
  split at hlarge <;> first | rfl | cases hlarge

/-- No number but one that is too large lacks a compressed form. -/
theorem Compressed.isTooLarge_of_encodeUInt {value : Nat} {error : Error}
    (herror : encodeUInt value = .error error) : error.isTooLarge = true := by
  unfold encodeUInt at herror
  split at herror
  · cases herror
  · split at herror
    · cases herror
    · split at herror <;> cases herror
      rfl

namespace BlobHeap

/-- A heap comes from another one by adding values. -/
abbrev Builder.GrowsTo : Builder → Builder → Prop :=
  GrowsAs Builder.data Builder.IsSound

/-- A blob that is refused leaves a heap as it is. -/
theorem Builder.run_add_error {builder after : Builder} {value : Bytes} {error : Error}
    (hadd : (add value).run builder = .error error after) :
    after = builder ∧ error.isTooLarge = true := by
  unfold add at hadd
  split at hadd
  · exact absurd hadd run_pure_ne_error
  · rw [run_get_bind_eq_error_iff] at hadd
    split at hadd
    · exact absurd hadd run_pure_ne_error
    · rw [run_get_bind_eq_error_iff] at hadd
      obtain ⟨_, rfl, rfl⟩ | ⟨_, hadd⟩ := run_guard_eq_error_iff.mp hadd
      · exact ⟨rfl, rfl⟩
      obtain ⟨_, rfl, rfl⟩ | ⟨_, hadd⟩ := run_guard_eq_error_iff.mp hadd
      · exact ⟨rfl, rfl⟩
      split at hadd
      · obtain hmodify | ⟨_, _, _, hpure⟩ := run_bind_eq_error_iff.mp hadd
        · exact absurd hmodify run_modify_ne_error
        · exact absurd hpure run_pure_ne_error
      · next herror =>
        obtain ⟨rfl, rfl⟩ := run_throw_eq_error_iff.mp hadd
        exact ⟨rfl, Compressed.isTooLarge_of_encodeUInt herror⟩

theorem Builder.confined_add (value : Bytes) :
    Confined GrowsTo (fun error : Error => error.isTooLarge = true) (add value) := by
  refine .of_unchanged (fun builder index after hadd hsound => ?_) fun _ _ _ => run_add_error
  obtain ⟨hafter, hmore, _⟩ := run_add hadd hsound
  exact ⟨hafter, hmore⟩

end BlobHeap

namespace GuidHeap

/-- A heap comes from another one by adding values. -/
abbrev Builder.GrowsTo : Builder → Builder → Prop :=
  GrowsAs Builder.data Builder.IsSound

/-- An identifier that is refused leaves a heap as it is. -/
theorem Builder.run_add_error {builder after : Builder} {value : Guid} {error : Error}
    (hadd : (add value).run builder = .error error after) :
    after = builder ∧ error.isTooLarge = true := by
  unfold add at hadd
  split at hadd
  · exact absurd hadd run_pure_ne_error
  · rw [run_get_bind_eq_error_iff] at hadd
    split at hadd
    · exact absurd hadd run_pure_ne_error
    · rw [run_get_bind_eq_error_iff] at hadd
      obtain ⟨_, rfl, rfl⟩ | ⟨_, hadd⟩ := run_guard_eq_error_iff.mp hadd
      · exact ⟨rfl, rfl⟩
      obtain hmodify | ⟨_, _, _, hpure⟩ := run_bind_eq_error_iff.mp hadd
      · exact absurd hmodify run_modify_ne_error
      · exact absurd hpure run_pure_ne_error

theorem Builder.confined_add (value : Guid) :
    Confined GrowsTo (fun error : Error => error.isTooLarge = true) (add value) := by
  refine .of_unchanged (fun builder index after hadd hsound => ?_) fun _ _ _ => run_add_error
  obtain ⟨hafter, hmore, _⟩ := run_add hadd hsound
  exact ⟨hafter, hmore⟩

end GuidHeap

namespace StringHeap

/-- A string stands at a position of the data, ended by the first zero byte after it. -/
structure HasString (data : Bytes) (index : UInt32) (value : String) : Prop where
  hasAt : data.HasAt index.toNat ((Bytes.ofText value).push 0)
  zero_notMem : 0 ∉ Bytes.ofText value

theorem HasString.grow {data : Bytes} {index : UInt32} {value : String}
    (hstring : HasString data index value) (more : Bytes) :
    HasString (data ++ more) index value :=
  ⟨hstring.hasAt.grow more, hstring.zero_notMem⟩

/-- A string ends at the first zero byte, wherever it is. -/
theorem endOf?_eq_some {data : Bytes} {position stop : Nat} (hle : position ≤ stop)
    (hstop : data[stop]? = some 0) (hbefore : ∀ i, position ≤ i → i < stop → data[i]? ≠ some 0) :
    endOf? data position = some stop := by
  induction hle using Nat.decreasingInduction with
  | self =>
    obtain ⟨hlt, hzero⟩ := Array.getElem?_eq_some_iff.mp hstop
    rw [endOf?, dif_pos hlt, if_pos hzero]
  | of_succ position hlt ih =>
    have hsize := (Array.getElem?_eq_some_iff.mp hstop).1
    have hbyte : data[position] ≠ 0 := fun hzero =>
      hbefore position (le_refl position) hlt (Array.getElem?_eq_some_iff.mpr ⟨_, hzero⟩)
    rw [endOf?, dif_pos (by omega), if_neg hbyte]
    exact ih fun i hi => hbefore i (by omega)

/-- A string is found where it stands. -/
theorem HasString.stringAt_eq {data : Bytes} {index : UInt32} {value : String}
    (hstring : HasString data index value) : stringAt ⟨data⟩ index.toNat = .ok value := by
  have hat := hstring.hasAt
  have hform : data.HasAt index.toNat (Bytes.ofText value) := (Array.push_eq_append ▸ hat).left
  have hsize := hat.size_le
  have hend : endOf? data index.toNat = some (index.toNat + (Bytes.ofText value).size) := by
    refine endOf?_eq_some (by omega) (hat.getElem?_eq _ Array.getElem?_push_size)
      fun i hle hlt hzero => ?_
    have hbyte := hform.getElem?_eq (i - index.toNat) (Array.getElem?_eq_getElem (by omega))
    rw [Nat.add_sub_cancel' hle, hzero, Option.some.injEq] at hbyte
    exact hstring.zero_notMem (hbyte ▸ Array.getElem_mem _)
  rw [Array.size_push] at hsize
  unfold stringAt
  rw [if_neg (by simp only; omega), hend]
  simp only [hform.extract_eq, Bytes.toText?_ofText]

/-- A heap under construction looks up strings where they stand. -/
structure Builder.IsSound (builder : Builder) : Prop where
  empty_at : HasString builder.data 0 ""
  found : ∀ value index, builder.lookup[value]? = some index → HasString builder.data index value

theorem Builder.IsSound.grow {builder : Builder} (hsound : builder.IsSound) (more : Bytes) :
    { builder with data := builder.data ++ more : Builder }.IsSound where
  empty_at := hsound.empty_at.grow more
  found value index hfound := (hsound.found value index hfound).grow more

theorem Builder.isSound_empty : Builder.empty.IsSound where
  empty_at := ⟨Bytes.hasAt_self #[0], by decide +kernel⟩
  found value index hfound := by simp [Builder.empty] at hfound

/-- A heap comes from another one by adding values. -/
abbrev Builder.GrowsTo : Builder → Builder → Prop :=
  GrowsAs Builder.data Builder.IsSound

/-- A string that is added is empty, or known, or new at the end of the heap. -/
theorem Builder.run_add_cases {builder next : Builder} {value : String} {index : UInt32}
    (hadd : (add value).run builder = .ok index next) :
    value = "" ∧ index = 0 ∧ next = builder ∨
    value ≠ "" ∧ builder.lookup[value]? = some index ∧ next = builder ∨
    value ≠ "" ∧ builder.lookup[value]? = none ∧ index.toNat = builder.data.size ∧
      0 ∉ Bytes.ofText value ∧
      next = ⟨builder.data ++ (Bytes.ofText value).push 0, builder.lookup.insert value index⟩ := by
  unfold add at hadd
  split at hadd
  · next hempty =>
    obtain ⟨rfl, rfl⟩ := run_pure_eq_ok_iff.mp hadd
    exact .inl ⟨String.isEmpty_iff.mp hempty, rfl, rfl⟩
  · next hempty =>
    have hvalue : value ≠ "" := fun hvalue => hempty (String.isEmpty_iff.mpr hvalue)
    obtain ⟨_, _, hget, hadd⟩ := run_bind_eq_ok_iff.mp hadd
    obtain ⟨rfl, rfl⟩ := run_get_eq_ok_iff.mp hget
    split at hadd
    · next found hfound =>
      obtain ⟨rfl, rfl⟩ := run_pure_eq_ok_iff.mp hadd
      exact .inr (.inl ⟨hvalue, hfound, rfl⟩)
    · next hnew =>
      obtain ⟨hzero, hadd⟩ := run_guard_eq_ok_iff.mp hadd
      obtain ⟨_, _, hget, hadd⟩ := run_bind_eq_ok_iff.mp hadd
      obtain ⟨rfl, rfl⟩ := run_get_eq_ok_iff.mp hget
      obtain ⟨hposition, hadd⟩ := run_guard_eq_ok_iff.mp hadd
      obtain ⟨_, _, hmodify, hadd⟩ := run_bind_eq_ok_iff.mp hadd
      obtain ⟨rfl, rfl⟩ := run_pure_eq_ok_iff.mp hadd
      have hindex : builder.data.size.toUInt32.toNat = builder.data.size :=
        UInt32.toNat_ofNat_of_lt' (by simp [UInt32.size]; omega)
      refine .inr (.inr ⟨hvalue, Option.not_isSome_iff_eq_none.mp ?_, hindex, by simpa using hzero,
        ?_⟩)
      · exact fun hsome => (Option.isSome_iff_exists.mp hsome).elim hnew
      · rw [← run_modify_eq_ok_iff.mp hmodify]
        simp

/-- A string that is added stands at the position that is given for it. -/
theorem Builder.run_add {builder next : Builder} {value : String} {index : UInt32}
    (hadd : (add value).run builder = .ok index next) (hsound : builder.IsSound) :
    next.IsSound ∧ (∃ more, next.data = builder.data ++ more) ∧
      HasString next.data index value := by
  obtain ⟨rfl, rfl, rfl⟩ | ⟨_, hfound, rfl⟩ | ⟨_, _, hindex, hzero, rfl⟩ := run_add_cases hadd
  · exact ⟨hsound, ⟨#[], by simp⟩, hsound.empty_at⟩
  · exact ⟨hsound, ⟨#[], by simp⟩, hsound.found value index hfound⟩
  · have hnew : HasString (builder.data ++ (Bytes.ofText value).push 0) index value :=
      ⟨⟨builder.data, #[], by simp, hindex.symm⟩, hzero⟩
    refine ⟨⟨hsound.empty_at.grow _, ?_⟩, ⟨_, rfl⟩, hnew⟩
    exact found_insert (fun _ _ hstring => hstring.grow _) hsound.found hnew

/-- A string that is refused leaves a heap as it is. -/
theorem Builder.run_add_error {builder after : Builder} {value : String} {error : Error}
    (hadd : (add value).run builder = .error error after) :
    after = builder ∧ (error.isTooLarge || error.isZeroByte) = true := by
  unfold add at hadd
  split at hadd
  · exact absurd hadd run_pure_ne_error
  · rw [run_get_bind_eq_error_iff] at hadd
    split at hadd
    · exact absurd hadd run_pure_ne_error
    · obtain ⟨_, rfl, rfl⟩ | ⟨_, hadd⟩ := run_guard_eq_error_iff.mp hadd
      · exact ⟨rfl, rfl⟩
      rw [run_get_bind_eq_error_iff] at hadd
      obtain ⟨_, rfl, rfl⟩ | ⟨_, hadd⟩ := run_guard_eq_error_iff.mp hadd
      · exact ⟨rfl, rfl⟩
      obtain hmodify | ⟨_, _, _, hpure⟩ := run_bind_eq_error_iff.mp hadd
      · exact absurd hmodify run_modify_ne_error
      · exact absurd hpure run_pure_ne_error

/-- A new string with a zero byte is refused. -/
theorem Builder.run_add_zeroByte {builder : Builder} {value : String}
    (hnew : builder.lookup[value]? = none) (hzero : (Bytes.ofText value).contains 0 = true) :
    (add value).run builder = .error (.malformed (.nulInString value)) builder := by
  have hempty : value.isEmpty = false := by
    by_contra hempty
    obtain rfl : value = "" := String.isEmpty_iff.mp (by simpa using hempty)
    exact absurd hzero (by decide +kernel)
  unfold add
  rw [if_neg (by simp [hempty]), run_get_bind_eq_error_iff, hnew]
  exact run_guard_eq_error_iff.mpr (.inl ⟨hzero, rfl, rfl⟩)

theorem Builder.confined_add (value : String) :
    Confined GrowsTo (fun error : Error => (error.isTooLarge || error.isZeroByte) = true)
      (add value) := by
  refine .of_unchanged (fun builder index after hadd hsound => ?_) fun _ _ _ => run_add_error
  obtain ⟨hafter, hmore, _⟩ := run_add hadd hsound
  exact ⟨hafter, hmore⟩

end StringHeap

section Names

open BlobHeap

/-- What writes the position of an added value before something else is confined if that is. -/
theorem BlobHeap.Builder.confined_position {α : Type} (value : Bytes)
    {next : Bytes → EStateM Error Builder α}
    (hnext : ∀ form, Confined GrowsTo (fun error : Error => error.isTooLarge = true) (next form)) :
    Confined GrowsTo (fun error : Error => error.isTooLarge = true) (do
      let index ← add value
      match Compressed.encodeUInt index.toNat with
      | .ok form => next form
      | .error error => throw error) := by
  refine (confined_add value).bind fun index => ?_
  cases hform : Compressed.encodeUInt index.toNat with
  | ok form => exact hnext form
  | error error =>
    intro builder
    exact ⟨refl_of GrowsTo builder, Compressed.isTooLarge_of_encodeUInt hform⟩

theorem DocumentName.confined_encodeParts (parts : List (List Char)) :
    Confined Builder.GrowsTo (fun error : Error => error.isTooLarge = true)
      (encodeParts parts) := by
  induction parts with
  | nil => exact .pure _
  | cons part parts ih => exact Builder.confined_position _ fun _ => ih.bind fun _ => .pure _

theorem DocumentName.confined_encode (path : String) :
    Confined Builder.GrowsTo (fun error : Error => error.isTooLarge = true) (encode path) :=
  (confined_encodeParts _).bind fun _ => .pure _

theorem Imports.confined_encode (names : List String) :
    Confined Builder.GrowsTo (fun error : Error => error.isTooLarge = true) (encode names) := by
  induction names with
  | nil => exact .pure _
  | cons name names ih => exact Builder.confined_position _ fun _ => ih.bind fun _ => .pure _

end Names

namespace HeapBuilders

variable {heaps after : HeapBuilders}

/-- Heaps come from others by adding values. -/
structure GrowsTo (heaps after : HeapBuilders) : Prop where
  strings : heaps.strings.GrowsTo after.strings
  blobs : heaps.blobs.GrowsTo after.blobs
  guids : heaps.guids.GrowsTo after.guids

instance : IsPreorder HeapBuilders GrowsTo where
  refl _ := ⟨refl_of StringHeap.Builder.GrowsTo _, refl_of BlobHeap.Builder.GrowsTo _,
    refl_of GuidHeap.Builder.GrowsTo _⟩
  trans _ _ _ hfirst hsecond := ⟨IsTrans.trans _ _ _ hfirst.strings hsecond.strings,
    IsTrans.trans _ _ _ hfirst.blobs hsecond.blobs, IsTrans.trans _ _ _ hfirst.guids hsecond.guids⟩

/-- All heaps under construction look up values where they stand, the heap of strings too. -/
structure IsLookup (heaps : HeapBuilders) : Prop where
  strings : heaps.strings.IsSound
  blobs : heaps.blobs.IsSound
  guids : heaps.guids.IsSound

theorem isLookup_empty : IsLookup {} where
  strings := StringHeap.Builder.isSound_empty
  blobs := BlobHeap.Builder.isSound_empty
  guids := GuidHeap.Builder.isSound_empty

theorem IsLookup.isSound (hheaps : heaps.IsLookup) : heaps.IsSound where
  strings := hheaps.strings.empty_at.hasAt
  blobs := hheaps.blobs
  guids := hheaps.guids

theorem GrowsTo.isLookup (hgrows : heaps.GrowsTo after) (hheaps : heaps.IsLookup) :
    after.IsLookup where
  strings := (hgrows.strings hheaps.strings).1
  blobs := (hgrows.blobs hheaps.blobs).1
  guids := (hgrows.guids hheaps.guids).1

theorem GrowsTo.extends (hgrows : heaps.GrowsTo after) (hheaps : heaps.IsLookup) :
    after.Extends heaps where
  sound := (hgrows.isLookup hheaps).isSound
  strings := (hgrows.strings hheaps.strings).2
  blobs := (hgrows.blobs hheaps.blobs).2
  guids := (hgrows.guids hheaps.guids).2

theorem confined_onStrings {α : Type} {fails : Error → Prop}
    {action : EStateM Error StringHeap.Builder α}
    (haction : Confined StringHeap.Builder.GrowsTo fails action) :
    Confined GrowsTo fails (onStrings action) := by
  intro heaps
  have hstrings := haction heaps.strings
  simp only [onStrings, EStateM.run] at hstrings ⊢
  cases hrun : action heaps.strings with
  | ok a strings =>
    rw [hrun] at hstrings
    exact ⟨hstrings, refl_of BlobHeap.Builder.GrowsTo _, refl_of GuidHeap.Builder.GrowsTo _⟩
  | error error strings =>
    rw [hrun] at hstrings
    exact ⟨⟨hstrings.1, refl_of BlobHeap.Builder.GrowsTo _, refl_of GuidHeap.Builder.GrowsTo _⟩,
      hstrings.2⟩

theorem confined_onBlobs {α : Type} {fails : Error → Prop}
    {action : EStateM Error BlobHeap.Builder α}
    (haction : Confined BlobHeap.Builder.GrowsTo fails action) :
    Confined GrowsTo fails (onBlobs action) := by
  intro heaps
  have hblobs := haction heaps.blobs
  simp only [onBlobs, EStateM.run] at hblobs ⊢
  cases hrun : action heaps.blobs with
  | ok a blobs =>
    rw [hrun] at hblobs
    exact ⟨refl_of StringHeap.Builder.GrowsTo _, hblobs, refl_of GuidHeap.Builder.GrowsTo _⟩
  | error error blobs =>
    rw [hrun] at hblobs
    exact ⟨⟨refl_of StringHeap.Builder.GrowsTo _, hblobs.1, refl_of GuidHeap.Builder.GrowsTo _⟩,
      hblobs.2⟩

theorem confined_onGuids {α : Type} {fails : Error → Prop}
    {action : EStateM Error GuidHeap.Builder α}
    (haction : Confined GuidHeap.Builder.GrowsTo fails action) :
    Confined GrowsTo fails (onGuids action) := by
  intro heaps
  have hguids := haction heaps.guids
  simp only [onGuids, EStateM.run] at hguids ⊢
  cases hrun : action heaps.guids with
  | ok a guids =>
    rw [hrun] at hguids
    exact ⟨refl_of StringHeap.Builder.GrowsTo _, refl_of BlobHeap.Builder.GrowsTo _, hguids⟩
  | error error guids =>
    rw [hrun] at hguids
    exact ⟨⟨refl_of StringHeap.Builder.GrowsTo _, refl_of BlobHeap.Builder.GrowsTo _, hguids.1⟩,
      hguids.2⟩

theorem confined_addBlob (value : Bytes) :
    Confined GrowsTo (fun error : Error => error.isTooLarge = true) (addBlob value) :=
  confined_onBlobs (BlobHeap.Builder.confined_add value)

theorem confined_addGuid (value : Guid) :
    Confined GrowsTo (fun error : Error => error.isTooLarge = true) (addGuid value) :=
  confined_onGuids (GuidHeap.Builder.confined_add value)

theorem confined_addString (value : String) :
    Confined GrowsTo (fun error : Error => (error.isTooLarge || error.isZeroByte) = true)
      (addString value) :=
  confined_onStrings (StringHeap.Builder.confined_add value)

end HeapBuilders

namespace DebugBuilder

open HeapBuilders

theorem confined_documentRow (document : SourceDocument) (rid : UInt32) :
    Confined GrowsTo (fun error : Error => error.isTooLarge = true)
      (documentRow document rid) :=
  (confined_onBlobs (DocumentName.confined_encode _)).bind fun _ =>
    (confined_addBlob _).bind fun _ => (confined_addGuid _).bind fun _ =>
      (confined_addBlob _).bind fun _ => (confined_addGuid _).bind fun _ => .pure _

theorem confined_variableRows (slots : List LocalVariable) :
    Confined GrowsTo (fun error : Error => (error.isTooLarge || error.isZeroByte) = true)
      (variableRows slots) := by
  induction slots with
  | nil => exact .pure _
  | cons first rest ih => exact (confined_addString _).bind fun _ => ih.bind fun _ => .pure _

end DebugBuilder

end PortablePdb
