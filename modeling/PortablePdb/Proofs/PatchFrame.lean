import PortablePdb.Proofs.Checked.Reader
import PortablePdb.Proofs.Container
import PortablePdb.Proofs.Patch
import PortablePdb.Proofs.Runs

namespace PortablePdb

open Reader

namespace Bytes

/-- Writes bytes in place from a position on, one after the other. -/
def writeFrom : (position : Nat) → List UInt8 → EStateM Error Bytes Unit
  | _, [] => return
  | position, byte :: bytes => do
    modify (·.setIfInBounds position byte)
    writeFrom (position + 1) bytes

/-- Bytes that are written take the place of as many others. -/
theorem run_writeFrom {patch : List UInt8} {before old after : Bytes}
    (hsize : old.size = patch.length) :
    (writeFrom before.size patch).run (before ++ (old ++ after)) =
      .ok () (before ++ (patch.toArray ++ after)) := by
  induction patch generalizing before old with
  | nil =>
    obtain rfl : old = #[] := Array.eq_empty_of_size_eq_zero hsize
    rfl
  | cons byte patch ih =>
    obtain ⟨_ | ⟨first, rest⟩⟩ := old
    · cases hsize
    have hset : (before ++ (⟨first :: rest⟩ ++ after)).setIfInBounds before.size byte =
        (before ++ #[byte]) ++ (⟨rest⟩ ++ after) := by
      rw [← Array.append_assoc]
      exact Array.toList_inj.mp (by simp)
    have hnext : (before ++ #[byte]).size = before.size + 1 := Array.size_append
    have hrest : (writeFrom (before ++ #[byte]).size patch).run
        ((before ++ #[byte]) ++ (⟨rest⟩ ++ after)) =
          .ok () ((before ++ #[byte]) ++ (patch.toArray ++ after)) :=
      ih (Nat.succ.inj hsize)
    rw [hnext, ← hset] at hrest
    have hform : (before ++ #[byte]) ++ (patch.toArray ++ after) =
        before ++ ((byte :: patch).toArray ++ after) :=
      Array.toList_inj.mp (by simp)
    exact hform ▸ hrest

/-- A window on the data that starts where a form stands has the form at its start. -/
theorem HasAt.extract {data form : Bytes} {position length : Nat} (hform : data.HasAt position form)
    (hle : form.size ≤ length) : HasAt (data.extract position (position + length)) 0 form := by
  obtain ⟨rest, hrest⟩ := hform.toList_extract hle
  exact ⟨#[], rest.toArray, Array.toList_inj.mp (by simpa using hrest), rfl⟩

end Bytes

/-- No id is read from fewer bytes than an id takes. -/
theorem ContentId.ofBytes_of_lt {data : Bytes} (hshort : data.size < size) :
    ofBytes data = .error .outOfBounds := by
  unfold size at hshort
  rw [ofBytes, Reader.eval, Reader.evalAt, read, Reader.guid]
  by_cases hguid : data.size < 0 + 16
  · simp only [Reader.runAt_bind, Reader.runAt_bytes_of_lt hguid]
  · have hform : (data.extract 0 (0 + 16)).size = 16 := by
      simp only [Array.size_extract]
      omega
    have hstamp : data.size < 0 + 16 + 4 := by omega
    simp only [Reader.runAt_bind, Reader.runAt_bytes (Nat.le_of_not_lt hguid), Guid.ofBytes?,
      dif_pos hform, Reader.runAt_pure, Reader.le32, Reader.natLE,
      Reader.runAt_bytes_of_lt hstamp]

namespace Root

theorem range_of_checkRange {data : Bytes} {header : StreamHeader} {done : Unit}
    (hrange : checkRange data header = .ok done) :
    header.offset.toNat + header.size.toNat ≤ data.size := by
  obtain ⟨_, hrange⟩ := guard_eq_ok_iff.mp hrange
  by_contra hlarge
  rw [if_pos (Nat.lt_of_not_le hlarge)] at hrange
  cases hrange

/-- Streams end within the data that their headers were read from. -/
theorem range_of_readHeaders {data : Bytes} {count position : Nat}
    {before headers : List StreamHeader}
    (hheaders : readHeaders data count position before = .ok headers)
    (hbefore : ∀ header ∈ before, header.offset.toNat + header.size.toNat ≤ data.size) :
    ∀ header ∈ headers, header.offset.toNat + header.size.toNat ≤ data.size := by
  induction count generalizing position before with
  | zero =>
    cases hheaders
    exact hbefore
  | succ count ih =>
    obtain ⟨_, hheaders⟩ := guard_eq_ok_iff.mp hheaders
    obtain ⟨header, _, hheaders⟩ := bind_eq_ok_iff.mp hheaders
    obtain ⟨_, hrange, hheaders⟩ := bind_eq_ok_iff.mp hheaders
    obtain ⟨_, hheaders⟩ := guard_eq_ok_iff.mp hheaders
    refine ih hheaders fun other hother => ?_
    obtain hother | hother := List.mem_append.mp hother
    · exact hbefore other hother
    · obtain rfl := List.mem_singleton.mp hother
      exact range_of_checkRange hrange

theorem range_of_read {data : Bytes} {root : Root} {name : String} {header : StreamHeader}
    (hread : read data = .ok root) (hheader : root.stream? name = some header) :
    header.offset.toNat + header.size.toNat ≤ data.size := by
  obtain ⟨_, _, _, _, hheaders⟩ := read_eq_ok hread
  exact range_of_readHeaders hheaders nofun header (List.mem_of_find?_eq_some hheader)

end Root

namespace Container

/-- Where the id of a container goes, if there is room for it in the data. -/
def idPosition (data : Bytes) : Except Error Nat := do
  let root ← Root.read data
  match root.stream? streamName with
  | some stream =>
    if data.size < stream.offset.toNat + ContentId.size then throw .outOfBounds
    return stream.offset.toNat
  | none => reject .containerWithoutPdb

/-- Replaces the content id of a container in place. -/
def patchId (id : ContentId) : EStateM Error Bytes Unit := do
  match idPosition (← get) with
  | .ok position => Bytes.writeFrom position id.toBytes.toList
  | .error error => throw error

theorem idPosition_eq_ok_iff {data : Bytes} {position : Nat} :
    idPosition data = .ok position ↔ ∃ root header, Root.read data = .ok root ∧
      root.stream? streamName = some header ∧ header.offset.toNat = position ∧
      position + ContentId.size ≤ data.size := by
  unfold idPosition
  rw [bind_eq_ok_iff]
  refine exists_congr fun root => ?_
  constructor
  · rintro ⟨hread, hposition⟩
    split at hposition
    · next header hheader =>
      obtain ⟨hfits, hposition⟩ := guard_eq_ok_iff.mp hposition
      obtain rfl := pure_eq_ok_iff.mp hposition
      exact ⟨header, hread, hheader, rfl, Nat.le_of_not_lt hfits⟩
    · cases hposition
  · rintro ⟨header, hread, hheader, rfl, hfits⟩
    refine ⟨hread, ?_⟩
    rw [hheader]
    exact guard_eq_ok_iff.mpr ⟨Nat.not_lt_of_le hfits, rfl⟩

/-- The container with another id, as a value, has the id at the same place. -/
theorem withId_eq (data : Bytes) (id : ContentId) :
    withId data id = idPosition data >>= fun position =>
      Bytes.overwrite data position id.toBytes := by
  unfold withId idPosition
  cases Root.read data with
  | error error => rfl
  | ok root =>
    rw [ok_bind, ok_bind]
    cases root.stream? streamName with
    | none => rfl
    | some header =>
      simp only
      split
      · next hshort =>
        rw [Bytes.overwrite, if_neg (by rw [ContentId.size_toBytes]; omega)]
        rfl
      · rfl

/-- A buffer is refused and stays as it is, or the id takes the place of as many bytes in it, and
of no others. -/
theorem run_patchId_cases (data : Bytes) (id : ContentId) :
    (∃ error, idPosition data = .error error ∧ withId data id = .error error ∧
      (patchId id).run data = .error error data) ∨
    ∃ before old after, data = before ++ (old ++ after) ∧ old.size = ContentId.size ∧
      idPosition data = .ok before.size ∧ withId data id = .ok (before ++ (id.toBytes ++ after)) ∧
      (patchId id).run data = .ok () (before ++ (id.toBytes ++ after)) := by
  have hrun : (patchId id).run data =
      (match idPosition data with
        | .ok position => Bytes.writeFrom position id.toBytes.toList
        | .error error => throw error : EStateM Error Bytes Unit).run data := rfl
  rw [withId_eq, hrun]
  cases hposition : idPosition data with
  | error error => exact .inl ⟨error, rfl, rfl, rfl⟩
  | ok position =>
    right
    obtain ⟨_, _, _, _, _, hfits⟩ := idPosition_eq_ok_iff.mp hposition
    obtain ⟨before, old, after, rfl, rfl, hold⟩ := Bytes.exists_split hfits
    have hsize : id.toBytes.size = old.size := by rw [ContentId.size_toBytes, hold]
    exact ⟨before, old, after, rfl, hold, rfl, Bytes.overwrite_append hsize,
      Bytes.run_writeFrom hsize.symm⟩

/-- A patch in place succeeds where that of the value does. -/
theorem run_patchId_eq_ok {data after : Bytes} {id : ContentId}
    (hvalue : withId data id = .ok after) : (patchId id).run data = .ok () after := by
  obtain ⟨error, _, hrefused, _⟩ | ⟨_, _, _, _, _, _, htaken, hrun⟩ := run_patchId_cases data id
  · rw [hvalue] at hrefused
    cases hrefused
  · rw [hvalue] at htaken
    cases htaken
    exact hrun

/-- The debug stream after a patch gives the new id if the id fits into it, and none otherwise. -/
theorem streamData?_of_patch {root : Root} {header : StreamHeader} {data after : Bytes}
    {id : ContentId} (hread : Root.read data = .ok root)
    (hheader : root.stream? streamName = some header) (hsize : after.size = data.size)
    (hid : after.HasAt header.offset.toNat id.toBytes) :
    ∃ stream, root.streamData? after streamName = some stream ∧
      ContentId.ofBytes stream =
        if ContentId.size ≤ header.size.toNat then .ok id else .error .outOfBounds := by
  have hrange := Root.range_of_read hread hheader
  refine ⟨after.extract header.offset.toNat (header.offset.toNat + header.size.toNat), ?_, ?_⟩
  · rw [Root.streamData?, hheader]
    exact if_pos (by omega)
  · split
    · next hfits =>
      exact ContentId.ofBytes_eq (hid.extract (by rwa [ContentId.size_toBytes]))
    · next hshort =>
      refine ContentId.ofBytes_of_lt ?_
      rw [Array.size_extract]
      omega

/-- What a patch of the id does to a buffer. A buffer that it refuses stays as it is. One that it
takes changes in as many bytes as an id takes, from the start of the debug stream on, and these are
those of the id; they belong to the stream, and the stream has the id, exactly if the stream is
that long. A buffer is taken if it has a debug stream and that many bytes from its start on. -/
theorem patchId_touches (data : Bytes) (id : ContentId) :
    (∀ error after, (patchId id).run data = .error error after →
      after = data ∧ withId data id = .error error) ∧
    (∀ after, (patchId id).run data = .ok () after → withId data id = .ok after ∧
      ∃ root header stream, Root.read data = .ok root ∧
        root.stream? streamName = some header ∧ root.streamData? after streamName = some stream ∧
        data.SameOutside header.offset.toNat (header.offset.toNat + ContentId.size) after ∧
        after.HasAt header.offset.toNat id.toBytes ∧
        if ContentId.size ≤ header.size.toNat then
          data.SameOutside header.offset.toNat (header.offset.toNat + header.size.toNat) after ∧
            ContentId.ofBytes stream = .ok id
        else ContentId.ofBytes stream = .error .outOfBounds) ∧
    ((∃ after, (patchId id).run data = .ok () after) ↔
      ∃ root header, Root.read data = .ok root ∧ root.stream? streamName = some header ∧
        header.offset.toNat + ContentId.size ≤ data.size) := by
  obtain ⟨error, hposition, hvalue, hrun⟩ |
    ⟨before, old, rest, rfl, hold, hposition, hvalue, hrun⟩ := run_patchId_cases data id
  · rw [hrun]
    refine ⟨?_, nofun, ?_⟩
    · intro _ after hafter
      cases hafter
      exact ⟨rfl, hvalue⟩
    · constructor
      · rintro ⟨after, hafter⟩
        cases hafter
      · rintro ⟨root, header, hread, hheader, hfits⟩
        have hok := idPosition_eq_ok_iff.mpr ⟨root, header, hread, hheader, rfl, hfits⟩
        rw [hposition] at hok
        cases hok
  · obtain ⟨root, header, hread, hheader, hoffset, hfits⟩ := idPosition_eq_ok_iff.mp hposition
    rw [hrun]
    refine ⟨nofun, ?_, fun _ => ⟨root, header, hread, hheader, hoffset ▸ hfits⟩, fun _ => ⟨_, rfl⟩⟩
    intro after hafter
    cases hafter
    have hsize : id.toBytes.size = old.size := by rw [ContentId.size_toBytes, hold]
    have hsame : Bytes.SameOutside (before ++ (old ++ rest)) before.size (before.size + old.size)
        (before ++ (id.toBytes ++ rest)) :=
      Bytes.sameOutside_replace hsize
    have hid : Bytes.HasAt (before ++ (id.toBytes ++ rest)) before.size id.toBytes :=
      ⟨before, rest, (Array.append_assoc ..).symm, rfl⟩
    rw [hold] at hsame
    rw [← hoffset] at hsame hid
    obtain ⟨stream, hstream, hfound⟩ := streamData?_of_patch hread hheader hsame.size_eq hid
    refine ⟨hvalue, root, header, stream, hread, hheader, hstream, hsame, hid, ?_⟩
    split
    · next hlong =>
      rw [if_pos hlong] at hfound
      exact ⟨hsame.widen (by omega), hfound⟩
    · next hshort => rwa [if_neg hshort] at hfound

/-- Metadata with a debug stream of some size as their only stream, and with 24 bytes from its start
on. -/
def singleStream (size : UInt32) : Bytes :=
  Bytes.le32 Root.signature ++ Bytes.le16 1 ++ Bytes.le16 1 ++ Bytes.le32 0 ++ Bytes.le32 4 ++
    Bytes.ofText "v" ++ Bytes.zeros 3 ++ Bytes.le16 0 ++ Bytes.le16 1 ++
    StreamHeader.encode ⟨40, size, streamName⟩ ++ Bytes.zeros 4 ++ Array.replicate 20 0x11

/-- The root of these metadata. -/
def singleRoot (size : UInt32) : Root where
  majorVersion := 1
  minorVersion := 1
  reserved := 0
  versionLength := 4
  version := "v"
  flags := 0
  streams := [⟨40, size, streamName⟩]

/-- A stream with room for the id has it after the patch, and nothing else is touched. -/
theorem patchId_touches_longStream :
    ∃ after stream, (patchId ⟨csharpLanguage, 1⟩).run (singleStream 24) = .ok () after ∧
      (singleRoot 24).streamData? after streamName = some stream ∧
      (singleStream 24).SameOutside 40 64 after ∧
      ContentId.ofBytes stream = .ok ⟨csharpLanguage, 1⟩ := by
  have hroot : Root.read (singleStream 24) = .ok (singleRoot 24) := by decide
  have hheader : (singleRoot 24).stream? streamName = some ⟨40, 24, streamName⟩ := by decide
  obtain ⟨_, htouches, htaken⟩ := patchId_touches (singleStream 24) ⟨csharpLanguage, 1⟩
  obtain ⟨after, hrun⟩ := htaken.mpr ⟨_, _, hroot, hheader, by decide⟩
  obtain ⟨_, root, header, stream, hread, hsome, hstream, _, _, hlong⟩ := htouches after hrun
  obtain rfl : root = singleRoot 24 := Except.ok.inj (hread.symm.trans hroot)
  obtain rfl : header = ⟨40, 24, streamName⟩ := Option.some.inj (hsome.symm.trans hheader)
  rw [if_pos (by decide)] at hlong
  exact ⟨after, stream, hrun, hstream, hlong.1, hlong.2⟩

/-- A stream without room for the id: the bytes after it are overwritten, and it gives no id. -/
theorem patchId_beyond_shortStream :
    Root.read (singleStream 4) = .ok (singleRoot 4) ∧
    (singleRoot 4).stream? streamName = some ⟨40, 4, streamName⟩ ∧
    ∃ after, (patchId ⟨⟨Vector.replicate 16 0xCD⟩, 1⟩).run (singleStream 4) = .ok () after ∧
      after[44]? ≠ (singleStream 4)[44]? ∧
      ∃ stream, (singleRoot 4).streamData? after streamName = some stream ∧
        ContentId.ofBytes stream = .error .outOfBounds := by
  have hroot : Root.read (singleStream 4) = .ok (singleRoot 4) := by decide
  have hvalue : withId (singleStream 4) ⟨⟨Vector.replicate 16 0xCD⟩, 1⟩ =
      .ok ((singleStream 4).extract 0 40 ++ Array.replicate 16 0xCD ++ #[1, 0, 0, 0] ++
        Array.replicate 4 0x11) := by
    decide
  refine ⟨hroot, by decide, _, run_patchId_eq_ok hvalue, by decide, ?_⟩
  exact ⟨#[0xCD, 0xCD, 0xCD, 0xCD], by decide, by decide⟩

end Container

end PortablePdb
