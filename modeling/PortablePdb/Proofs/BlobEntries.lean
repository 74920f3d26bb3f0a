import PortablePdb.Proofs.Checked.Heaps
import PortablePdb.Proofs.Interning
import PortablePdb.Proofs.ShortestForms

namespace PortablePdb.BlobHeap

open Reader

/-- One step of an iteration from a position: what it yields, and where the next step starts. It
yields nothing at the end and where only padding is left, and goes to the end where it cannot read a
blob. -/
def next (heap : BlobHeap) (position : Nat) : Option (Except Error (Nat × Bytes)) × Nat :=
  if heap.data.size ≤ position then (none, position)
  else if heap.isPaddingFrom position then (none, heap.data.size)
  else
    match Compressed.readUInt.runAt (heap.data.extract position) 0 with
    | .error error _ => (some (.error error), heap.data.size)
    | .ok length skip =>
      match heap.blobAt position with
      | .ok value => (some (.ok (position, value)), position + (skip + length))
      | .error error => (some (.error error), heap.data.size)

/-- The items that an iteration yields from a position on until it stays where it is and yields no
more. -/
inductive Drains (heap : BlobHeap) :
    (position : Nat) → (items : List (Except Error (Nat × Bytes))) → Prop
  | done {position stop : Nat} (hnext : heap.next position = (none, stop))
      (hstop : heap.next stop = (none, stop)) : heap.Drains position []
  | item {position stop : Nat} {item : Except Error (Nat × Bytes)}
      {items : List (Except Error (Nat × Bytes))} (hnext : heap.next position = (some item, stop))
      (hrest : heap.Drains stop items) : heap.Drains position (item :: items)

/-- A blob of zeros is no padding: its length tells it apart. -/
example : (⟨#[0, 1, 0, 0]⟩ : BlobHeap).next 1 = (some (.ok (1, #[0])), 3) ∧
    (⟨#[0, 1, 0, 0]⟩ : BlobHeap).next 3 = (none, 4) := by
  decide +kernel

variable {heap : BlobHeap} {position : Nat}

theorem next_of_size_le (hend : heap.data.size ≤ position) :
    heap.next position = (none, position) :=
  if_pos hend

theorem entriesFrom_of_size_le (hend : heap.data.size ≤ position) :
    heap.entriesFrom position = [] := by
  rw [entriesFrom, if_pos hend]

/-- Wherever an iteration stands, it is over, or yields the blob that is found there and moves
forward, or yields the error that is met there and goes to the end. -/
theorem next_cases (heap : BlobHeap) (position : Nat) :
    (heap.entriesFrom position = [] ∧
      ∃ stop, heap.next position = (none, stop) ∧ heap.next stop = (none, stop)) ∨
    position < heap.data.size ∧
      ((∃ value stop, position < stop ∧ heap.blobAt position = .ok value ∧
        heap.next position = (some (.ok (position, value)), stop) ∧
        heap.entriesFrom position = .ok (position, value) :: heap.entriesFrom stop) ∨
      ∃ error, heap.blobAt position = .error error ∧
        heap.next position = (some (.error error), heap.data.size) ∧
        heap.entriesFrom position = [.error error]) := by
  by_cases hend : heap.data.size ≤ position
  · exact .inl ⟨entriesFrom_of_size_le hend, position, next_of_size_le hend, next_of_size_le hend⟩
  by_cases hpadding : heap.isPaddingFrom position = true
  · refine .inl ⟨?_, heap.data.size, ?_, next_of_size_le (Nat.le_refl _)⟩
    · rw [entriesFrom, if_neg hend, if_pos hpadding]
    · rw [next, if_neg hend, if_pos hpadding]
  refine .inr ⟨Nat.lt_of_not_le hend, ?_⟩
  rw [entriesFrom, if_neg hend, if_neg hpadding, next, if_neg hend, if_neg hpadding]
  have hmoved := Checked.relocates_readUInt heap.data position 0 (by omega)
  rw [Nat.add_zero] at hmoved
  rw [Checked.blobAt_eq, readBlob, runAt_bind, hmoved]
  cases hlength : Compressed.readUInt.runAt (heap.data.extract position) 0 with
  | error error skip => exact .inr ⟨error, rfl, rfl, rfl⟩
  | ok length skip =>
    obtain ⟨width, rfl, hwidth, _⟩ := Compressed.spans_readUInt _ _ _ _ hlength
    simp only [Checked.moved, Nat.zero_add]
    by_cases hshort : heap.data.size < position + width + length
    · rw [if_pos hshort, runAt_bytes_of_lt hshort]
      exact .inr ⟨.outOfBounds, rfl, rfl, rfl⟩
    · have hpos := hwidth.pos
      have hforward : position < position + width + length := by omega
      rw [if_neg hshort, runAt_bytes (Nat.le_of_not_lt hshort), ← Nat.add_assoc]
      simp only [if_pos hforward]
      exact .inl ⟨_, _, hforward, rfl, rfl, rfl⟩

/-- An iteration from any position ends, with the entries from there on. -/
theorem drains_entriesFrom (heap : BlobHeap) (position : Nat) :
    heap.Drains position (heap.entriesFrom position) := by
  induction hleft : heap.data.size - position using Nat.strongRecOn generalizing position with
  | ind left ih =>
    obtain ⟨hentries, stop, hnext, hstop⟩ | ⟨hlt, ⟨value, stop, hforward, _, hnext, hentries⟩ |
      ⟨error, _, hnext, hentries⟩⟩ := heap.next_cases position
    · rw [hentries]
      exact .done hnext hstop
    · rw [hentries]
      exact .item hnext (ih _ (by omega) stop rfl)
    · have hend := next_of_size_le (Nat.le_refl heap.data.size)
      rw [hentries]
      exact .item hnext (.done hend hend)

theorem Drains.unique {items others : List (Except Error (Nat × Bytes))}
    (hitems : heap.Drains position items) (hothers : heap.Drains position others) :
    items = others := by
  induction hitems generalizing others with
  | done hnext _ =>
    cases hothers with
    | done _ _ => rfl
    | item hother _ => cases hnext.symm.trans hother
  | item hnext _ ih =>
    cases hothers with
    | done hother _ => cases hnext.symm.trans hother
    | item hother hrest =>
      cases hnext.symm.trans hother
      rw [ih hrest]

/-- The entries from a position on are blobs at ever later positions, each of them the one that is
found there, and after them at most an error, which is met behind them all. -/
theorem exists_entriesFrom_eq (heap : BlobHeap) (position : Nat) :
    ∃ (blobs : List (Nat × Bytes)) (error? : Option Error),
      heap.entriesFrom position = blobs.map .ok ++ error?.toList.map .error ∧
      (∀ blob ∈ blobs, position ≤ blob.1 ∧ heap.blobAt blob.1 = .ok blob.2) ∧
      blobs.Pairwise (·.1 < ·.1) ∧
      ∀ error ∈ error?, ∃ stop, position ≤ stop ∧ (∀ blob ∈ blobs, blob.1 < stop) ∧
        heap.blobAt stop = .error error := by
  induction hleft : heap.data.size - position using Nat.strongRecOn generalizing position with
  | ind left ih =>
    obtain ⟨hentries, _⟩ | ⟨hlt, ⟨value, stop, hforward, hvalue, _, hentries⟩ |
      ⟨error, herror, _, hentries⟩⟩ := heap.next_cases position
    · exact ⟨[], none, hentries, nofun, .nil, nofun⟩
    · obtain ⟨blobs, error?, hrest, hblobs, hascending, hlast⟩ := ih _ (by omega) stop rfl
      refine ⟨(position, value) :: blobs, error?, by rw [hentries, hrest]; rfl, ?_, ?_, ?_⟩
      · refine List.forall_mem_cons.mpr ⟨⟨Nat.le_refl _, hvalue⟩, fun blob hblob => ?_⟩
        exact ⟨hforward.le.trans (hblobs blob hblob).1, (hblobs blob hblob).2⟩
      · exact .cons (fun blob hblob => Nat.lt_of_lt_of_le hforward (hblobs blob hblob).1) hascending
      · intro error herror
        obtain ⟨last, hle, hbefore, hat⟩ := hlast error herror
        have hposition : position < last := by omega
        exact ⟨last, hposition.le, List.forall_mem_cons.mpr ⟨hposition, hbefore⟩, hat⟩
    · refine ⟨[], some error, hentries, nofun, .nil, fun other hother => ?_⟩
      cases hother
      exact ⟨position, Nat.le_refl _, nofun, herror⟩

theorem isPaddingFrom_iff : heap.isPaddingFrom position = true ↔
    ∀ i byte, position ≤ i → heap.data[i]? = some byte → byte = 0 := by
  rw [isPaddingFrom, Array.all_iff_forall]
  constructor
  · intro hzero i byte hle hbyte
    obtain ⟨hlt, rfl⟩ := Array.getElem?_eq_some_iff.mp hbyte
    exact eq_of_beq (hzero i hlt ⟨hle, hlt⟩)
  · intro hzero i hlt hbounds
    exact beq_iff_eq.mpr (hzero i _ hbounds.1 (Array.getElem?_eq_getElem hlt))

/-- The length of a blob that is not empty does not start with a zero byte, which would be a length
of its own. -/
theorem lead_ne_zero {value form : Bytes} {lead : UInt8}
    (hform : Compressed.encodeUInt value.size = .ok form) (hvalue : value ≠ #[])
    (hlead : form[0]? = some lead) : lead ≠ 0 := by
  rintro rfl
  have hfirst : form.HasAt 0 #[0] := by
    obtain ⟨_ | ⟨first, rest⟩⟩ := form
    · cases hlead
    · obtain rfl : first = 0 := Option.some.inj hlead
      exact ⟨#[], ⟨rest⟩, Array.toList_inj.mp (by simp), rfl⟩
  have hread := Compressed.takes_encodeUInt hform form 0 (Bytes.hasAt_self form)
  rw [Compressed.readUInt, runAt_bind, takes_u8 0 form 0 hfirst] at hread
  have hsize : 0 = value.size := by
    injection hread
  exact hvalue (Array.eq_empty_of_size_eq_zero hsize.symm)

/-- Blobs that are not empty stand in the data one after the other, from a position to another. -/
inductive Standing (data : Bytes) :
    (start : Nat) → (blobs : List (Nat × Bytes)) → (stop : Nat) → Prop
  | nil (start : Nat) : Standing data start [] start
  | cons {start stop : Nat} {value form : Bytes} {blobs : List (Nat × Bytes)}
      (hvalue : value ≠ #[]) (hform : Compressed.encodeUInt value.size = .ok form)
      (hat : data.HasAt start (form ++ value))
      (hrest : Standing data (start + (form ++ value).size) blobs stop) :
      Standing data start ((start, value) :: blobs) stop

namespace Standing

variable {data : Bytes} {start stop : Nat} {blobs : List (Nat × Bytes)}

theorem grow (hblobs : Standing data start blobs stop) (more : Bytes) :
    Standing (data ++ more) start blobs stop := by
  induction hblobs with
  | nil start => exact .nil start
  | cons hvalue hform hat _ ih => exact .cons hvalue hform (hat.grow more) ih

/-- A blob more at the end. -/
theorem concat {value form : Bytes} (hblobs : Standing data start blobs stop) (hvalue : value ≠ #[])
    (hform : Compressed.encodeUInt value.size = .ok form)
    (hat : data.HasAt stop (form ++ value)) :
    Standing data start (blobs ++ [(stop, value)]) (stop + (form ++ value).size) := by
  induction hblobs with
  | nil start => exact .cons hvalue hform hat (.nil _)
  | cons hfirst hlength hfirstAt _ ih => exact .cons hfirst hlength hfirstAt (ih hat)

/-- An iteration finds the blobs if padding is all that follows. -/
theorem entriesFrom_eq (hblobs : Standing data start blobs stop)
    (hpadding : (⟨data⟩ : BlobHeap).isPaddingFrom stop = true) :
    (⟨data⟩ : BlobHeap).entriesFrom start = blobs.map .ok := by
  induction hblobs with
  | nil start =>
    rw [entriesFrom, if_pos hpadding]
    exact ite_self _
  | @cons start stop value form blobs hvalue hform hat _ ih =>
    have hpos := Compressed.size_encodeUInt_pos hform
    have hle := hat.size_le
    rw [Array.size_append] at hle
    have hnot : ¬ (⟨data⟩ : BlobHeap).isPaddingFrom start = true := by
      intro hzero
      have hlead := Array.getElem?_eq_getElem hpos
      refine lead_ne_zero hform hvalue hlead ?_
      exact isPaddingFrom_iff.mp hzero start form[0] (Nat.le_refl _) (hat.left.getElem?_eq 0 hlead)
    have hread := takes_readBlob hform data start hat
    have hforward : start < start + (form ++ value).size := by
      rw [Array.size_append]
      omega
    rw [entriesFrom, if_neg (show ¬ data.size ≤ start by omega), if_neg hnot]
    simp only [hread, if_pos hforward, ih hpadding, List.map_cons]

end Standing

/-- The blobs that a heap took, in the order in which they were added; the empty one, which is there
from the start, is none of them. -/
def taken (history : List (Bytes × Except Error UInt32)) : List Bytes :=
  (history.filter fun (value, outcome) => outcome.isOk && !value.isEmpty).map Prod.fst

theorem taken_append (first second : List (Bytes × Except Error UInt32)) :
    taken (first ++ second) = taken first ++ taken second := by
  simp [taken]

theorem mem_taken_iff {history : List (Bytes × Except Error UInt32)} {value : Bytes} :
    value ∈ taken history ↔ value ≠ #[] ∧ ∃ index, (value, .ok index) ∈ history := by
  constructor
  · intro hvalue
    obtain ⟨⟨_, outcome⟩, hmem, rfl⟩ := List.mem_map.mp hvalue
    obtain ⟨hmem, hkept⟩ := List.mem_filter.mp hmem
    cases outcome with
    | ok index => exact ⟨by simpa using (Bool.and_eq_true_iff.mp hkept).2, index, hmem⟩
    | error error => cases hkept
  · rintro ⟨hvalue, index, hmem⟩
    have hkept : (!value.isEmpty) = true := by simpa using hvalue
    exact List.mem_map.mpr ⟨_, List.mem_filter.mpr ⟨hmem, hkept⟩, rfl⟩

theorem taken_ok {value : Bytes} {index : UInt32} (hvalue : value ≠ #[]) :
    taken [(value, .ok index)] = [value] := by
  simp [taken, Except.isOk, Except.toBool, hvalue]

theorem eraseDups_concat {α : Type} [BEq α] [LawfulBEq α] (items : List α) (item : α) :
    (items ++ [item]).eraseDups =
      if item ∈ items then items.eraseDups else items.eraseDups ++ [item] := by
  rw [List.eraseDups_append]
  split
  · next hmem => simp [List.removeAll, hmem]
  · next hmem => simp [List.removeAll, hmem, List.eraseDups_cons]

/-- A heap under construction whose blobs stand one after the other up to its end, as they were
first taken. -/
structure Builder.Holds (builder : Builder) (values : List Bytes) (blobs : List (Nat × Bytes)) :
    Prop where
  sound : builder.IsSound
  standing : Standing builder.data 1 blobs builder.data.size
  values_eq : blobs.map Prod.snd = values.eraseDups
  nodup : (blobs.map Prod.snd).Nodup
  mem_iff : ∀ value position, (position, value) ∈ blobs ↔
    ∃ index, builder.lookup[value]? = some index ∧ index.toNat = position

namespace Builder

theorem holds_empty : empty.Holds [] [] where
  sound := isSound_empty
  standing := .nil 1
  values_eq := rfl
  nodup := .nil
  mem_iff value position := by simp [empty]

variable {builder : Builder} {values : List Bytes} {blobs : List (Nat × Bytes)}

theorem Holds.mem_values_iff (hholds : builder.Holds values blobs) {value : Bytes} :
    value ∈ values ↔ ∃ index, builder.lookup[value]? = some index := by
  rw [← List.mem_eraseDups, ← hholds.values_eq, List.mem_map]
  constructor
  · rintro ⟨⟨position, _⟩, hblob, rfl⟩
    obtain ⟨index, hfound, _⟩ := (hholds.mem_iff _ _).mp hblob
    exact ⟨index, hfound⟩
  · rintro ⟨index, hfound⟩
    exact ⟨_, (hholds.mem_iff _ _).mpr ⟨index, hfound, rfl⟩, rfl⟩

/-- Each value that is added, whether it is taken or refused, leaves the blobs as they were or comes
to stand behind them. -/
theorem Holds.step (hholds : builder.Holds values blobs) (value : Bytes) :
    ∃ more, (format.step value builder).2.Holds
      (values ++ taken [(value, (format.step value builder).1)]) (blobs ++ more) := by
  unfold HeapFormat.step
  cases hrun : (format.add value).run builder with
  | error error after =>
    obtain ⟨rfl, _⟩ := run_add_error hrun
    exact ⟨[], by simpa [taken, Except.isOk, Except.toBool] using hholds⟩
  | ok index after =>
    obtain ⟨rfl, rfl, rfl⟩ | ⟨hvalue, hfound, rfl⟩ | ⟨hvalue, hnew, hindex, form, hform, rfl⟩ :=
      run_add_cases hrun
    · exact ⟨[], by simpa [taken, Except.isOk, Except.toBool] using hholds⟩
    · have hmem := hholds.mem_values_iff.mpr ⟨index, hfound⟩
      refine ⟨[], ?_⟩
      simp only [taken_ok hvalue, List.append_nil]
      exact { hholds with values_eq := by rw [eraseDups_concat, if_pos hmem, hholds.values_eq] }
    · have hmem : value ∉ values := by
        rw [hholds.mem_values_iff, hnew]
        exact nofun
      refine ⟨[(builder.data.size, value)], ?_⟩
      simp only [taken_ok hvalue]
      constructor
      case sound => exact (run_add hrun hholds.sound).1
      case standing =>
        rw [Array.size_append]
        exact (hholds.standing.grow _).concat hvalue hform ⟨builder.data, #[], by simp, rfl⟩
      case values_eq =>
        rw [eraseDups_concat, if_neg hmem, List.map_append, hholds.values_eq]
        rfl
      case nodup =>
        rw [List.map_append, List.nodup_append]
        refine ⟨hholds.nodup, List.pairwise_singleton _ _, fun other hother last hlast => ?_⟩
        rw [hholds.values_eq, List.mem_eraseDups] at hother
        obtain rfl := List.mem_singleton.mp hlast
        rintro rfl
        exact hmem hother
      case mem_iff =>
        intro other position
        rw [List.mem_append, List.mem_singleton, hholds.mem_iff, Prod.mk.injEq, ← hindex]
        simp only [Std.HashMap.getElem?_insert, beq_iff_eq]
        by_cases hsame : value = other
        · subst hsame
          simp [hnew, eq_comm]
        · simp [hsame, Ne.symm hsame]

/-- The same holds of values that are added one after the other. -/
theorem Holds.addAll (hholds : builder.Holds values blobs) (others : List Bytes) :
    ∃ more, (format.addAll others builder).2.Holds
      (values ++ taken (format.addAll others builder).1) (blobs ++ more) := by
  induction others generalizing builder values blobs with
  | nil => exact ⟨[], by simpa [HeapFormat.addAll, taken] using hholds⟩
  | cons value others ih =>
    obtain ⟨first, hfirst⟩ := hholds.step value
    obtain ⟨rest, hrest⟩ := ih hfirst
    refine ⟨first ++ rest, ?_⟩
    rw [List.append_assoc, ← taken_append, List.append_assoc] at hrest
    exact hrest

theorem exists_holds_ofValues (values : List Bytes) :
    ∃ blobs, (format.ofValues values).Holds (taken (format.history values)) blobs :=
  holds_empty.addAll values

end Builder

/-- The padding of a finished heap is padding. -/
theorem isPaddingFrom_pad4 (data : Bytes) :
    (⟨data.pad4⟩ : BlobHeap).isPaddingFrom data.size = true := by
  rw [isPaddingFrom_iff]
  intro i byte hle hbyte
  change (data ++ Bytes.zeros _)[i]? = some byte at hbyte
  rw [Array.getElem?_append_right hle, Bytes.zeros, Array.getElem?_replicate] at hbyte
  split at hbyte
  · exact (Option.some.inj hbyte).symm
  · cases hbyte

/-- Iterating over a heap agrees with looking up its blobs one by one. An iteration ends, and what
it yields are the entries of the heap: blobs at ever later positions, each the one that is found at
its position, and behind them at most one error, which looking up a blob gives as well. -/
structure IteratesAsRead (heap : BlobHeap) : Prop where
  drains_iff : ∀ items, heap.Drains 1 items ↔ items = heap.entries
  entries_eq : ∃ (blobs : List (Nat × Bytes)) (error? : Option Error),
    heap.entries = blobs.map .ok ++ error?.toList.map .error ∧
    blobs.Pairwise (·.1 < ·.1) ∧
    (∀ blob ∈ blobs, heap.blobAt blob.1 = .ok blob.2) ∧
    ∀ error ∈ error?, ∃ stop, (∀ blob ∈ blobs, blob.1 < stop) ∧ heap.blobAt stop = .error error

theorem iteratesAsRead (heap : BlobHeap) : heap.IteratesAsRead where
  drains_iff items := by
    constructor
    · exact fun hitems => hitems.unique (heap.drains_entriesFrom 1)
    · rintro rfl
      exact heap.drains_entriesFrom 1
  entries_eq := by
    obtain ⟨blobs, error?, hentries, hblobs, hascending, hlast⟩ := heap.exists_entriesFrom_eq 1
    refine ⟨blobs, error?, hentries, hascending, fun blob hblob => (hblobs blob hblob).2, ?_⟩
    intro error herror
    obtain ⟨stop, _, hbefore, hat⟩ := hlast error herror
    exact ⟨stop, hbefore, hat⟩

/-- What is found in the finished heap after some values were added: the blobs that were taken, each
once and in the order in which they first were, at the positions that were given for them. -/
structure IteratesAsAdded (values : List Bytes) (blobs : List (Nat × Bytes)) : Prop where
  ofBytes_eq : ofBytes (format.finished values) = .ok ⟨format.finished values⟩
  drains : (⟨format.finished values⟩ : BlobHeap).Drains 1 (blobs.map .ok)
  values_eq : blobs.map Prod.snd = (taken (format.history values)).eraseDups
  nodup : (blobs.map Prod.snd).Nodup
  mem_iff : ∀ position value, (position, value) ∈ blobs ↔ value ≠ #[] ∧
    ∃ index, (value, .ok index) ∈ format.history values ∧ index.toNat = position

theorem exists_iteratesAsAdded (values : List Bytes) : ∃ blobs, IteratesAsAdded values blobs := by
  obtain ⟨blobs, hholds⟩ := Builder.exists_holds_ofValues values
  obtain ⟨_, _, hindices⟩ := interns_format.addAll interns_format.sound_empty values
  refine ⟨blobs, hholds.sound.ofBytes_toBytes, ?_, hholds.values_eq, hholds.nodup, ?_⟩
  · have hentries := (hholds.standing.grow _).entriesFrom_eq (isPaddingFrom_pad4 _)
    rw [← hentries]
    exact drains_entriesFrom _ 1
  · have hgiven {value : Bytes} {index : UInt32} (hvalue : value ≠ #[])
        (hmem : (value, .ok index) ∈ format.history values) :
        (format.ofValues values).lookup[value]? = some index := by
      obtain ⟨hempty, _⟩ | ⟨_, hfound⟩ := hindices value index hmem
      · exact absurd hempty hvalue
      · exact hfound
    intro position value
    rw [hholds.mem_iff]
    constructor
    · rintro ⟨index, hfound, hposition⟩
      have htaken := hholds.mem_values_iff.mpr ⟨index, hfound⟩
      obtain ⟨hvalue, given, hmem⟩ := mem_taken_iff.mp htaken
      have hsame := Option.some.inj ((hgiven hvalue hmem).symm.trans hfound)
      exact ⟨hvalue, given, hmem, hsame ▸ hposition⟩
    · rintro ⟨hvalue, index, hmem, hposition⟩
      exact ⟨index, hgiven hvalue hmem, hposition⟩

/-- Iterating over any heap agrees with looking up its blobs, and iterating over a finished heap
finds what was added to it. -/
theorem iteration_agrees :
    (∀ heap : BlobHeap, heap.IteratesAsRead) ∧
    ∀ values, ∃ blobs, IteratesAsAdded values blobs :=
  ⟨iteratesAsRead, exists_iteratesAsAdded⟩

end PortablePdb.BlobHeap
