import Mathlib.Data.List.Perm.Subperm
import PortablePdb.Proofs.Builder

namespace PortablePdb

/-- Whatever comes of an action on a state: if it succeeds, something holds of its value and of the
state after it, and if it fails, something holds of the error and of the state it is left with. -/
def Yields {ε σ α : Type} (succeeds : α → σ → Prop) (fails : ε → σ → Prop)
    (action : EStateM ε σ α) (state : σ) : Prop :=
  match action.run state with
  | .ok a after => succeeds a after
  | .error error after => fails error after

namespace Yields

variable {ε σ α β : Type} {succeeds : α → σ → Prop} {fails : ε → σ → Prop}
  {action : EStateM ε σ α} {state after : σ}

theorem of_run (hok : ∀ a after, action.run state = .ok a after → succeeds a after)
    (herror : ∀ error after, action.run state = .error error after → fails error after) :
    Yields succeeds fails action state := by
  unfold Yields
  cases hrun : action.run state with
  | ok a after => exact hok a after hrun
  | error error after => exact herror error after hrun

theorem of_ok (haction : Yields succeeds fails action state) {a : α}
    (hrun : action.run state = .ok a after) : succeeds a after := by
  unfold Yields at haction
  rwa [hrun] at haction

theorem of_error (haction : Yields succeeds fails action state) {error : ε}
    (hrun : action.run state = .error error after) : fails error after := by
  unfold Yields at haction
  rwa [hrun] at haction

/-- An action that cannot fail succeeds. -/
theorem exists_ok (haction : Yields succeeds (fun _ _ => False) action state) :
    ∃ a after, action.run state = .ok a after := by
  cases hrun : action.run state with
  | ok a after => exact ⟨a, after, rfl⟩
  | error error after => exact (haction.of_error hrun).elim

/-- What is known of runs that succeed may be used to conclude something of their results. -/
theorem imp {succeeds' : α → σ → Prop} (haction : Yields succeeds fails action state)
    (himp : ∀ a after, action.run state = .ok a after → succeeds a after → succeeds' a after) :
    Yields succeeds' fails action state :=
  of_run (fun a after hrun => himp a after hrun (haction.of_ok hrun))
    fun _ _ hrun => haction.of_error hrun

theorem bind {succeeds' : β → σ → Prop} {rest : α → EStateM ε σ β}
    (haction : Yields succeeds fails action state)
    (hrest : ∀ a after, succeeds a after → Yields succeeds' fails (rest a) after) :
    Yields succeeds' fails (action >>= rest) state := by
  apply of_run
  · intro b after hrun
    obtain ⟨a, middle, hfirst, hlast⟩ := run_bind_eq_ok_iff.mp hrun
    exact (hrest a middle (haction.of_ok hfirst)).of_ok hlast
  · intro error after hrun
    obtain hfirst | ⟨a, middle, hfirst, hlast⟩ := run_bind_eq_error_iff.mp hrun
    · exact haction.of_error hfirst
    · exact (hrest a middle (haction.of_ok hfirst)).of_error hlast

theorem pure {a : α} (hstate : succeeds a state) : Yields succeeds fails (Pure.pure a) state :=
  hstate

theorem get_bind {rest : σ → EStateM ε σ α} (hrest : Yields succeeds fails (rest state) state) :
    Yields succeeds fails (get >>= rest) state :=
  hrest

theorem modify_bind {f : σ → σ} {rest : Unit → EStateM ε σ α}
    (hrest : Yields succeeds fails (rest ()) (f state)) :
    Yields succeeds fails (modify f >>= rest) state :=
  hrest

/-- An action that is refused on some condition does what its rest does if the condition fails. -/
theorem guard {condition : Prop} [Decidable condition] {error : ε}
    {more : β → EStateM ε σ α} (hcondition : ¬ condition)
    (haction : Yields succeeds fails action state) :
    Yields succeeds fails (if condition then (throw error : EStateM ε σ β) >>= more else action)
      state := by
  rwa [if_neg hcondition]

theorem discard {succeeds' : Unit → σ → Prop}
    (haction : Yields (fun _ after => succeeds' () after) fails action state) :
    Yields succeeds' fails (Functor.discard action) state := by
  change Yields succeeds' fails ((fun _ => ()) <$> action) state
  rw [map_eq_pure_bind]
  exact haction.bind fun _ _ hafter => pure hafter

end Yields

/-- The number of bytes for which an error says that there was no room. -/
def Error.refusedBytes : Error → Nat
  | .malformed (.compressedRange size) | .malformed (.blobSize size) => size
  | _ => 0

/-- Only numbers from 2^29 on lack a compressed form. -/
theorem Compressed.refusedBytes_of_encodeUInt {value : Nat} {error : Error}
    (herror : encodeUInt value = .error error) :
    error.refusedBytes = value ∧ 0x20000000 ≤ value := by
  unfold encodeUInt at herror
  split at herror
  · cases herror
  · split at herror
    · cases herror
    · split at herror
      · cases herror
      · next hlarge =>
        cases herror
        exact ⟨rfl, Nat.not_le.mp hlarge⟩

namespace BlobHeap

/-- A heap has 512 megabytes, or it would have them with a value for which there was no room. -/
def Builder.Overflows (error : Error) (builder : Builder) : Prop :=
  0x20000000 ≤ builder.size + error.refusedBytes

/-- The position of a blob has a form unless the heap has 512 megabytes. -/
theorem HasBlob.le_size {builder : Builder} {index : UInt32} {value : Bytes} {error : Error}
    (hblob : HasBlob builder.data index value)
    (herror : Compressed.encodeUInt index.toNat = .error error) : 0x20000000 ≤ builder.size := by
  obtain ⟨_, hlarge⟩ := Compressed.refusedBytes_of_encodeUInt herror
  obtain ⟨form, _, hat⟩ := hblob
  have hle := hat.size_le
  unfold Builder.size
  omega

/-- A blob is refused only for want of room. -/
theorem Builder.yields_add {builder : Builder} (hsound : builder.IsSound) (value : Bytes) :
    Yields (fun index after => after.IsSound ∧ HasBlob after.data index value)
      (fun error after => after.Overflows error) (add value) builder := by
  apply Yields.of_run
  · intro index after hadd
    obtain ⟨hafter, _, hblob⟩ := run_add hadd hsound
    exact ⟨hafter, hblob⟩
  · intro error after hadd
    unfold add at hadd
    split at hadd
    · exact absurd hadd run_pure_ne_error
    rw [run_get_bind_eq_error_iff] at hadd
    split at hadd
    · exact absurd hadd run_pure_ne_error
    rw [run_get_bind_eq_error_iff] at hadd
    obtain ⟨hlarge, rfl, rfl⟩ | ⟨_, hadd⟩ := run_guard_eq_error_iff.mp hadd
    · change 0x20000000 ≤ builder.data.size + _
      omega
    obtain ⟨hlarge, rfl, rfl⟩ | ⟨_, hadd⟩ := run_guard_eq_error_iff.mp hadd
    · change 0x20000000 ≤ _ + value.size
      omega
    split at hadd
    · exact absurd (run_bind_pure_eq_error_iff.mp hadd) run_modify_ne_error
    · next herror =>
      obtain ⟨rfl, rfl⟩ := run_throw_eq_error_iff.mp hadd
      obtain ⟨hsize, hlarge⟩ := Compressed.refusedBytes_of_encodeUInt herror
      unfold Overflows
      omega

end BlobHeap

section Names

open BlobHeap

variable {fails : Error → Builder → Prop} {builder : Builder}

/-- Whether heaps fail only in some way to add a blob, and otherwise have it where they say. -/
def BlobHeap.AddsUnless (fails : Error → Builder → Prop) (value : Bytes) : Prop :=
  ∀ builder : Builder, builder.IsSound →
    Yields (fun index after => after.IsSound ∧ HasBlob after.data index value) fails
      (Builder.add value) builder

/-- Whether heaps count as having failed if they have a blob at a position without a form. -/
def BlobHeap.FailsPastForms (fails : Error → Builder → Prop) : Prop :=
  ∀ (builder : Builder) index value error, HasBlob builder.data index value →
    Compressed.encodeUInt index.toNat = .error error → fails error builder

/-- A path fails in no other way than its parts. -/
theorem DocumentName.yields_encode_of {path : String} (hindex : FailsPastForms fails)
    (hparts : ∀ part ∈ Text.split separator path.toList,
      AddsUnless fails (Bytes.ofText (String.ofList part)))
    (hsound : builder.IsSound) :
    Yields (fun _ after => after.IsSound) fails (encode path) builder := by
  have hencode (parts : List (List Char)) {builder : Builder} (hsound : builder.IsSound)
      (hparts : ∀ part ∈ parts, AddsUnless fails (Bytes.ofText (String.ofList part))) :
      Yields (fun _ after => after.IsSound) fails (encodeParts parts) builder := by
    induction parts generalizing builder with
    | nil => exact .pure hsound
    | cons part parts ih =>
      obtain ⟨hpart, hrest⟩ := List.forall_mem_cons.mp hparts
      refine (hpart builder hsound).bind fun index after ⟨hafter, hblob⟩ => ?_
      cases hform : Compressed.encodeUInt index.toNat with
      | ok form => exact (ih hafter hrest).bind fun _ _ hlast => .pure hlast
      | error error => exact hindex after index _ error hblob hform
  exact (hencode _ hsound hparts).bind fun _ _ hafter => .pure hafter

/-- Imports fail in no other way than their names. -/
theorem Imports.yields_encode_of {names : List String} (hindex : FailsPastForms fails)
    (hnames : ∀ name ∈ names, AddsUnless fails (Bytes.ofText name)) (hsound : builder.IsSound) :
    Yields (fun _ after => after.IsSound) fails (encode names) builder := by
  induction names generalizing builder with
  | nil => exact .pure hsound
  | cons name names ih =>
    obtain ⟨hname, hrest⟩ := List.forall_mem_cons.mp hnames
    refine (hname builder hsound).bind fun index after ⟨hafter, hblob⟩ => ?_
    cases hform : Compressed.encodeUInt index.toNat with
    | ok form => exact (ih hrest hafter).bind fun _ _ hlast => .pure hlast
    | error error => exact hindex after index _ error hblob hform

theorem BlobHeap.failsPastForms_overflows :
    FailsPastForms fun error builder => builder.Overflows error := by
  intro builder index value error hblob herror
  have hle := hblob.le_size herror
  unfold Builder.Overflows
  omega

theorem DocumentName.yields_encode (hsound : builder.IsSound) (path : String) :
    Yields (fun _ after => after.IsSound) (fun error after => after.Overflows error) (encode path)
      builder :=
  yields_encode_of failsPastForms_overflows
    (fun _ _ _ hbuilder => Builder.yields_add hbuilder _) hsound

theorem Imports.yields_encode (hsound : builder.IsSound) (names : List String) :
    Yields (fun _ after => after.IsSound) (fun error after => after.Overflows error) (encode names)
      builder :=
  yields_encode_of failsPastForms_overflows
    (fun _ _ _ hbuilder => Builder.yields_add hbuilder _) hsound

end Names

namespace GuidHeap

/-- A heap that has some of the identifiers in a list, each once. -/
structure Builder.HasOnly (builder : Builder) (known : List Guid) : Prop where
  size_eq : builder.data.size = 16 * builder.lookup.size
  mem : ∀ guid ∈ builder.lookup, guid ∈ known

variable {builder : Builder} {known : List Guid}

theorem Builder.hasOnly_empty (known : List Guid) : Builder.empty.HasOnly known where
  size_eq := by simp [Builder.empty]
  mem := by simp [Builder.empty]

theorem Builder.HasOnly.size_le (honly : builder.HasOnly known) :
    builder.data.size ≤ 16 * known.length := by
  have hnodup : builder.lookup.keys.Nodup :=
    Std.HashMap.distinct_keys.imp fun hne => by simpa using hne
  have hsubset : builder.lookup.keys ⊆ known := fun guid hguid =>
    honly.mem guid (Std.HashMap.mem_keys.mp hguid)
  have hle := (hnodup.subperm hsubset).length_le
  rw [Std.HashMap.length_keys] at hle
  rw [honly.size_eq]
  omega

/-- No identifier of a short list is refused. -/
theorem Builder.HasOnly.yields_add (honly : builder.HasOnly known)
    (hshort : known.length < 0xFFFFFFFF) {value : Guid} (hvalue : value ∈ known)
    (fails : Error → Builder → Prop) :
    Yields (fun _ after => after.HasOnly known) fails (add value) builder := by
  unfold add
  split
  · exact .pure honly
  apply Yields.get_bind
  split
  · exact .pure honly
  · next hnew =>
    have hle := honly.size_le
    apply Yields.get_bind
    refine .guard (by omega) (.modify_bind (.pure ?_))
    have habsent : value ∉ builder.lookup := by
      rw [Std.HashMap.mem_iff_isSome_getElem?, Option.eq_none_iff_forall_ne_some.mpr hnew]
      decide
    constructor
    · simp only [Array.size_append, Guid.size_toBytes, honly.size_eq,
        Std.HashMap.size_insert, habsent, if_false]
      omega
    · intro guid hguid
      rcases Std.HashMap.mem_insert.mp hguid with hsame | hold
      · exact eq_of_beq hsame ▸ hvalue
      · exact honly.mem guid hold

end GuidHeap

/-- The identifiers that records of source files refer to. -/
def knownGuids : List Guid :=
  sha256Algorithm :: csharpLanguage :: CustomKind.known.map CustomKind.guid

namespace HeapBuilders

variable {heaps : HeapBuilders}

/-- Heaps as the records of source files fill them: they look up values where they stand, there are
no strings, and only a few identifiers. -/
structure IsPlain (heaps : HeapBuilders) : Prop extends heaps.IsSound where
  noStrings : heaps.strings.data = #[0]
  fewGuids : heaps.guids.HasOnly knownGuids

theorem isPlain_empty : IsPlain {} where
  toIsSound := isSound_empty
  noStrings := rfl
  fewGuids := GuidHeap.Builder.hasOnly_empty _

/-- The heap of blobs has no room. -/
def Overflows (error : Error) (heaps : HeapBuilders) : Prop :=
  heaps.blobs.Overflows error

/-- An action keeps heaps plain, and fails only where the heap of blobs has no room. -/
def StaysPlain {α : Type} (action : EStateM Error HeapBuilders α) : Prop :=
  ∀ heaps, heaps.IsPlain →
    Yields (fun _ after => after.IsPlain) (fun error after => after.Overflows error) action heaps

namespace StaysPlain

variable {α β : Type} {action : EStateM Error HeapBuilders α}

theorem bind {rest : α → EStateM Error HeapBuilders β} (haction : StaysPlain action)
    (hrest : ∀ a, StaysPlain (rest a)) : StaysPlain (action >>= rest) :=
  fun heaps hplain => (haction heaps hplain).bind fun a after hafter => hrest a after hafter

theorem pure (a : α) : StaysPlain (Pure.pure a) :=
  fun _ hplain => .pure hplain

end StaysPlain

theorem staysPlain_onBlobs {α : Type} {action : EStateM Error BlobHeap.Builder α}
    (haction : ∀ blobs, blobs.IsSound → Yields (fun _ after => after.IsSound)
      (fun error after => after.Overflows error) action blobs) :
    StaysPlain (onBlobs action) := by
  intro heaps hplain
  apply Yields.of_run
  · intro a after hrun
    obtain ⟨blobs, hblobs, rfl⟩ := run_onBlobs_eq_ok_iff.mp hrun
    exact { hplain with blobs := (haction _ hplain.blobs).of_ok hblobs }
  · intro error after hrun
    obtain ⟨blobs, hblobs, rfl⟩ := run_onBlobs_eq_error_iff.mp hrun
    exact (haction _ hplain.blobs).of_error hblobs

theorem staysPlain_addBlob (value : Bytes) : StaysPlain (addBlob value) :=
  staysPlain_onBlobs fun _ hsound =>
    (BlobHeap.Builder.yields_add hsound value).imp fun _ _ _ hafter => hafter.1

theorem staysPlain_addGuid {value : Guid} (hvalue : value ∈ knownGuids) :
    StaysPlain (addGuid value) := by
  intro heaps hplain
  have hadd (fails : Error → GuidHeap.Builder → Prop) :=
    hplain.fewGuids.yields_add (by decide) hvalue fails
  apply Yields.of_run
  · intro index after hrun
    obtain ⟨guids, hguids, rfl⟩ := run_onGuids_eq_ok_iff.mp hrun
    exact { hplain with
      guids := (GuidHeap.Builder.run_add hguids hplain.guids).1
      fewGuids := (hadd fun _ _ => False).of_ok hguids }
  · intro error after hrun
    obtain ⟨guids, hguids, rfl⟩ := run_onGuids_eq_error_iff.mp hrun
    exact absurd ((hadd fun _ _ => False).of_error hguids) id

theorem guid_mem_knownGuids {kind : CustomKind} (hkind : kind ∈ CustomKind.known) :
    kind.guid ∈ knownGuids :=
  List.mem_cons_of_mem _ (List.mem_cons_of_mem _ (List.mem_map_of_mem hkind))

theorem staysPlain_documentRow (document : SourceDocument) (rid : UInt32) :
    StaysPlain (DebugBuilder.documentRow document rid) := by
  have halgorithm : sha256Algorithm ∈ knownGuids := List.mem_cons_self
  have hlanguage : csharpLanguage ∈ knownGuids := List.mem_cons_of_mem _ List.mem_cons_self
  have hname := staysPlain_onBlobs fun _ hsound => DocumentName.yields_encode hsound document.path
  exact hname.bind fun _ => (staysPlain_addBlob _).bind fun _ =>
    (staysPlain_addGuid halgorithm).bind fun _ => (staysPlain_addBlob _).bind fun _ =>
      (staysPlain_addGuid hlanguage).bind fun _ => .pure _

theorem staysPlain_imports (names : List String) :
    StaysPlain (onBlobs (Imports.encode names) >>= addBlob) :=
  (staysPlain_onBlobs fun _ hsound => Imports.yields_encode hsound names).bind staysPlain_addBlob

end HeapBuilders

end PortablePdb
