import Mathlib.Data.List.Perm.Subperm
import PortablePdb.Metadata.Root
import PortablePdb.Proofs.Related

namespace PortablePdb

open Reader

namespace StreamHeader

/-- The names of streams are short texts whose characters are single bytes other than zero. -/
theorem nameChars_ofText {name : String} (hname : name ∈ validNames) (rest : List UInt8) :
    nameChars ((Bytes.ofText name).toList ++ 0 :: rest) = name.toList := by
  have hbytes : ∀ name ∈ validNames, (∀ byte ∈ (Bytes.ofText name).toList, (byte != 0) = true) ∧
      (Bytes.ofText name).toList.map (fun byte => Char.ofNat byte.toNat) = name.toList := by
    decide +kernel
  obtain ⟨hnonzero, hchars⟩ := hbytes name hname
  rw [nameChars, List.takeWhile_append_of_pos hnonzero, List.takeWhile_cons_of_neg (by simp),
    List.append_nil, hchars]

theorem utf8ByteSize_le {name : String} (hname : name ∈ validNames) : name.utf8ByteSize ≤ 8 := by
  revert name
  decide

theorem size_encode (header : StreamHeader) : header.encode.size = header.encodedSize := by
  simp only [encode, encodedSize, Bytes.size_pad4, Array.size_push, Array.size_append,
    Bytes.size_le32, Bytes.size_ofText, Bytes.align4]
  omega

/-- A header with one of the names is read back from its bytes. -/
theorem readAt_encode {header : StreamHeader} {data : Bytes} {position : Nat}
    (hname : header.name ∈ validNames) (hat : data.HasAt position header.encode) :
    readAt data position = .ok header := by
  have hparts : data.HasAt position (Bytes.le32 header.offset ++ (Bytes.le32 header.size ++
      (Bytes.ofText header.name ++ #[0]))) := by
    have hpadded := hat.inner (Bytes.hasAt_pad4 _)
    rwa [Nat.add_zero, Array.push_eq_append, Array.append_assoc, Array.append_assoc] at hpadded
  have hwindowForm : data.HasAt (position + 8) (Bytes.ofText header.name ++ #[0]) :=
    hparts.right.right
  have hshort := utf8ByteSize_le hname
  have hle := hwindowForm.size_le
  simp only [Array.size_append, Bytes.size_ofText, List.size_toArray, List.length_singleton] at hle
  have hfits : (Bytes.ofText header.name ++ #[0]).size ≤ maxName := by
    simp [maxName]
    omega
  obtain ⟨rest, hwindow⟩ := hwindowForm.toList_extract hfits
  have hzero :
      ((data.extract (position + 8) (position + 8 + maxName)).toList.contains 0) = true := by
    rw [hwindow]
    simp
  have hchars : String.ofList (nameChars ((data.extract (position + 8)
      (position + 8 + maxName)).toList)) = header.name := by
    rw [hwindow]
    simp only [Array.toList_append, List.append_assoc, List.singleton_append]
    rw [nameChars_ofText hname, String.ofList_toList]
  unfold readAt
  rw [if_neg (by omega)]
  simp only [hchars]
  rw [hzero, if_neg (by simp), if_neg (by simpa using hname)]
  refine bind_eq_ok_iff.mpr ⟨_, (takes_le32 _).evalAt_eq hparts.left, ?_⟩
  exact bind_eq_ok_iff.mpr ⟨_, (takes_le32 _).evalAt_eq hparts.right.left, rfl⟩

end StreamHeader

namespace Root

/-- A header places a stream if it has its name and the stream stands where the header says. -/
structure Places (data : Bytes) (header : StreamHeader) (stream : String × Bytes) : Prop where
  name : header.name = stream.1
  size : header.size.toNat = stream.2.pad4.size
  at_offset : data.HasAt header.offset.toNat stream.2.pad4

/-- The header of the first stream tells its position and its size, and those of the others follow.
-/
theorem headersFrom_cons {position : Nat} {stream : String × Bytes}
    {streams : List (String × Bytes)} {headers : List StreamHeader}
    (hheaders : headersFrom position (stream :: streams) = .ok headers) :
    ∃ header rest, headers = header :: rest ∧ header.name = stream.1 ∧
      header.offset.toNat = position ∧ header.size.toNat = Bytes.align4 stream.2.size ∧
      headersFrom (position + Bytes.align4 stream.2.size) streams = .ok rest := by
  obtain ⟨hfits, hheaders⟩ := guard_eq_ok_iff.mp hheaders
  obtain ⟨rest, hrest, hheaders⟩ := bind_eq_ok_iff.mp hheaders
  simp only [Bool.or_eq_true, decide_eq_true_eq, not_or, Nat.not_lt] at hfits
  have hposition : position.toUInt32.toNat = position :=
    UInt32.toNat_ofNat_of_lt' (by simp [UInt32.size]; omega)
  have hsize : (Bytes.align4 stream.2.size).toUInt32.toNat = Bytes.align4 stream.2.size :=
    UInt32.toNat_ofNat_of_lt' (by simp [UInt32.size]; omega)
  exact ⟨_, rest, (pure_eq_ok_iff.mp hheaders).symm, rfl, hposition, hsize, hrest⟩

theorem names_headersFrom {position : Nat} {streams : List (String × Bytes)}
    {headers : List StreamHeader} (hheaders : headersFrom position streams = .ok headers) :
    headers.map (·.name) = streams.map (·.1) := by
  induction streams generalizing position headers with
  | nil =>
    cases hheaders
    rfl
  | cons stream streams ih =>
    obtain ⟨header, rest, rfl, hname, _, _, hrest⟩ := headersFrom_cons hheaders
    rw [List.map_cons, List.map_cons, hname, ih hrest]

theorem forall₂_headersFrom {data : Bytes} {position : Nat} {streams : List (String × Bytes)}
    {headers : List StreamHeader} (hheaders : headersFrom position streams = .ok headers)
    (hat : data.HasAt position (Bytes.concat (streams.map (·.2.pad4)))) :
    List.Forall₂ (Places data) headers streams := by
  induction streams generalizing position headers with
  | nil =>
    cases hheaders
    exact .nil
  | cons stream streams ih =>
    obtain ⟨header, rest, rfl, hname, hposition, hsize, hrest⟩ := headersFrom_cons hheaders
    refine .cons ⟨hname, by rw [hsize, Bytes.size_pad4], by rw [hposition]; exact hat.left⟩ ?_
    have hright := hat.right
    rw [Bytes.size_pad4] at hright
    exact ih hrest hright

/-- Headers that stand one after the other are read before those that follow them, if they have
names of their own. -/
theorem readHeaders_append {data : Bytes} {headers : List StreamHeader} (before : List StreamHeader)
    {position : Nat} (count : Nat)
    (hat : data.HasAt position (Bytes.concat (headers.map (·.encode))))
    (hnames : ∀ header ∈ headers, header.name ∈ StreamHeader.validNames)
    (hranges : ∀ header ∈ headers, checkRange data header = .ok ())
    (hdistinct : ((before ++ headers).map (·.name)).Nodup) :
    readHeaders data (headers.length + count) position before =
      readHeaders data count (position + (Bytes.concat (headers.map (·.encode))).size)
        (before ++ headers) := by
  induction headers generalizing before position with
  | nil => simp
  | cons header headers ih =>
    have hle := hat.left.size_le
    have hnew : before.any (·.name == header.name) = false := by
      rw [List.any_eq_false]
      intro other hother heq
      rw [List.map_append, List.nodup_append] at hdistinct
      exact hdistinct.2.2 _ (List.mem_map_of_mem hother) _
        (List.mem_map_of_mem List.mem_cons_self) (by simpa using heq)
    have hrest := hat.right
    rw [StreamHeader.size_encode] at hrest
    rw [List.append_cons] at hdistinct
    have hlater := ih _ hrest
      (fun other hother => hnames other (List.mem_cons_of_mem header hother))
      (fun other hother => hranges other (List.mem_cons_of_mem header hother)) hdistinct
    rw [List.length_cons, Nat.add_right_comm, readHeaders, if_neg (by omega),
      StreamHeader.readAt_encode (hnames header List.mem_cons_self) hat.left]
    change (checkRange data header >>= _) = _
    rw [hranges header List.mem_cons_self]
    change (if before.any (·.name == header.name) then _ else _) = _
    rw [hnew, if_neg (by simp), hlater, List.map_cons, Bytes.concat_cons, Array.size_append,
      StreamHeader.size_encode, List.append_cons before header headers, Nat.add_assoc]

/-- Headers that stand one after the other are read back, if they have names of their own. -/
theorem readHeaders_eq {data : Bytes} {headers : List StreamHeader} (before : List StreamHeader)
    {position : Nat} (hat : data.HasAt position (Bytes.concat (headers.map (·.encode))))
    (hnames : ∀ header ∈ headers, header.name ∈ StreamHeader.validNames)
    (hranges : ∀ header ∈ headers, checkRange data header = .ok ())
    (hdistinct : ((before ++ headers).map (·.name)).Nodup) :
    readHeaders data headers.length position before = .ok (before ++ headers) :=
  readHeaders_append before 0 hat hnames hranges hdistinct

theorem size_concat_encode {headers : List StreamHeader} {streams : List (String × Bytes)}
    (hnames : headers.map (·.name) = streams.map (·.1)) :
    (Bytes.concat (headers.map (·.encode))).size = directorySize streams := by
  induction streams generalizing headers with
  | nil =>
    obtain rfl := List.map_eq_nil_iff.mp hnames
    rfl
  | cons stream streams ih =>
    obtain ⟨header, headers, rfl, hname, hnames⟩ := List.map_eq_cons_iff.mp hnames
    rw [List.map_cons, Bytes.concat_cons, Array.size_append, StreamHeader.size_encode,
      ih hnames, StreamHeader.encodedSize, hname]
    rfl

/-- The parts of metadata: the signature, the version, the headers of the streams, and the streams.
-/
theorem encode_eq {version : String} {streams : List (String × Bytes)} {data : Bytes}
    (hdata : encode version streams = .ok data) :
    ∃ headers, headersFrom (20 + Bytes.align4 (version.utf8ByteSize + 1) + directorySize streams)
        streams = .ok headers ∧
      Bytes.align4 (version.utf8ByteSize + 1) ≤ 0xFFFFFFFF ∧
      data = Bytes.le32 signature ++ (Bytes.le16 1 ++ (Bytes.le16 1 ++ (Bytes.le32 0 ++
        (Bytes.le32 (Bytes.align4 (version.utf8ByteSize + 1)).toUInt32 ++
          (Bytes.pad4 ((Bytes.ofText version).push 0) ++ (Bytes.le16 0 ++
            (Bytes.le16 streams.length.toUInt16 ++ (Bytes.concat (headers.map (·.encode)) ++
              Bytes.concat (streams.map (·.2.pad4)))))))))) := by
  simp only [encode] at hdata
  obtain ⟨headers, hheaders, hdata⟩ := bind_eq_ok_iff.mp hdata
  split at hdata
  · cases hdata
  · split at hdata
    · cases hdata
    · next hversion =>
      refine ⟨headers, hheaders, by omega, ?_⟩
      rw [← pure_eq_ok_iff.mp hdata, Bytes.foldl_append_eq, Bytes.foldl_append_eq]
      simp only [Array.append_assoc]

/-- Streams that metadata may have together. -/
structure IsDirectory (streams : List (String × Bytes)) : Prop where
  ne_nil : streams ≠ []
  valid : ∀ stream ∈ streams, stream.1 ∈ StreamHeader.validNames
  distinct : (streams.map (·.1)).Nodup

namespace IsDirectory

variable {streams : List (String × Bytes)}

theorem length_le (hstreams : IsDirectory streams) : streams.length ≤ 7 := by
  have hsubset : streams.map (·.1) ⊆ StreamHeader.validNames := by
    intro name hname
    obtain ⟨stream, hstream, rfl⟩ := List.mem_map.mp hname
    exact hstreams.valid stream hstream
  have hle := (hstreams.distinct.subperm hsubset).length_le
  rwa [List.length_map] at hle

theorem directorySize_le (streams : List (String × Bytes)) :
    12 * streams.length ≤ directorySize streams := by
  induction streams with
  | nil => exact Nat.le_refl 0
  | cons stream streams ih =>
    have hname : 4 ≤ Bytes.align4 (stream.1.utf8ByteSize + 1) := by
      simp only [Bytes.align4]
      omega
    change 12 * (streams.length + 1) ≤
      8 + Bytes.align4 (stream.1.utf8ByteSize + 1) + directorySize streams
    omega

end IsDirectory

theorem checkRange_of_places {data : Bytes} {header : StreamHeader} {stream : String × Bytes}
    (hplaces : Places data header stream) (hsize : data.size < 0x100000000) :
    checkRange data header = .ok () := by
  have hle := hplaces.at_offset.size_le
  rw [← hplaces.size] at hle
  unfold checkRange
  simp only
  rw [if_neg (by omega), if_neg (by omega)]
  rfl

/-- Each field of a written root is at its place. -/
structure Fields (data : Bytes) (versionSize : Nat) (streams : List (String × Bytes))
    (headers : List StreamHeader) : Prop where
  size : data.size =
    16 + versionSize + 4 + directorySize streams + (Bytes.concat (streams.map (·.2.pad4))).size
  signature : data.HasAt 0 (Bytes.le32 signature)
  major : data.HasAt 4 (Bytes.le16 1)
  minor : data.HasAt 6 (Bytes.le16 1)
  reserved : data.HasAt 8 (Bytes.le32 0)
  version : data.HasAt 12 (Bytes.le32 versionSize.toUInt32)
  flags : data.HasAt (16 + versionSize) (Bytes.le16 0)
  count : data.HasAt (16 + versionSize + 2) (Bytes.le16 streams.length.toUInt16)
  headers : data.HasAt (16 + versionSize + 4) (Bytes.concat (headers.map (·.encode)))
  streams : data.HasAt (16 + versionSize + 4 + directorySize streams)
    (Bytes.concat (streams.map (·.2.pad4)))

theorem fields_of_encode {version : String} {streams : List (String × Bytes)} {data : Bytes}
    (hdata : encode version streams = .ok data) :
    ∃ headers, headersFrom (20 + Bytes.align4 (version.utf8ByteSize + 1) + directorySize streams)
        streams = .ok headers ∧
      Bytes.align4 (version.utf8ByteSize + 1) ≤ 0xFFFFFFFF ∧
      Fields data (Bytes.align4 (version.utf8ByteSize + 1)) streams headers := by
  obtain ⟨headers, hheaders, hlength, hparts⟩ := encode_eq hdata
  have hat := Bytes.hasAt_of_eq hparts
  have hversionForm : (Bytes.pad4 ((Bytes.ofText version).push 0)).size =
      Bytes.align4 (version.utf8ByteSize + 1) := by
    rw [Bytes.size_pad4, Array.size_push, Bytes.size_ofText]
  have hrest := hat.right.right.right.right.right.right
  rw [hversionForm] at hrest
  exact ⟨headers, hheaders, hlength, {
    size := by
      simp only [hparts, Array.size_append, Bytes.size_le32, Bytes.size_le16, hversionForm,
        size_concat_encode (names_headersFrom hheaders)]
      omega
    signature := hat.left
    major := hat.right.left
    minor := hat.right.right.left
    reserved := hat.right.right.right.left
    version := hat.right.right.right.right.left
    flags := hrest.left
    count := hrest.right.left
    headers := hrest.right.right.left
    streams := by
      rw [← size_concat_encode (names_headersFrom hheaders)]
      exact hrest.right.right.right }⟩

/-- The number of streams of a written directory is one that a reader accepts. -/
theorem count_accepted {streams : List (String × Bytes)} {size : Nat}
    (hstreams : IsDirectory streams) (hsize : directorySize streams ≤ size) :
    ¬ (decide (streams.length.toUInt16 = 0) ||
      decide (StreamHeader.validNames.length < streams.length.toUInt16.toNat) ||
      decide (size < streams.length.toUInt16.toNat * 9)) = true := by
  have hseven := hstreams.length_le
  have hone := List.length_pos_iff.mpr hstreams.ne_nil
  have hdirectory := IsDirectory.directorySize_le streams
  have hcount : streams.length.toUInt16.toNat = streams.length := by
    simpa using Nat.mod_eq_of_lt (show streams.length < 65536 by omega)
  have hnonzero : streams.length.toUInt16 ≠ 0 := by
    rw [Ne, ← UInt16.toNat_inj, hcount, UInt16.toNat_zero]
    omega
  have hvalid : ¬ StreamHeader.validNames.length < streams.length := by
    simp only [StreamHeader.validNames, List.length_cons, List.length_nil]
    omega
  simp only [hcount, hnonzero, hvalid, decide_false, Bool.false_or, decide_eq_true_eq]
  omega

/-- Reading a root whose fields are in place comes down to reading the headers of its streams. -/
theorem read_of_fields {data : Bytes} {versionSize : Nat} {streams : List (String × Bytes)}
    {headers : List StreamHeader} (hfields : Fields data versionSize streams headers)
    (hversion : versionSize ≤ 0xFFFFFFFF) (hfour : 4 ≤ versionSize)
    (hstreams : IsDirectory streams) :
    ∃ version, read data =
      (readHeaders data streams.length (16 + versionSize + 4) []).map fun streams =>
        { majorVersion := 1, minorVersion := 1, reserved := 0
          versionLength := versionSize.toUInt32, version, flags := 0, streams } := by
  have hle := hfields.streams.size_le
  have hseven := hstreams.length_le
  have hone := List.length_pos_iff.mpr hstreams.ne_nil
  have hdirectory := IsDirectory.directorySize_le streams
  have hcountValue : streams.length.toUInt16.toNat = streams.length := by
    simpa using Nat.mod_eq_of_lt (show streams.length < 65536 by omega)
  have hversionValue : versionSize.toUInt32.toNat = versionSize :=
    UInt32.toNat_ofNat_of_lt' (by simp [UInt32.size]; omega)
  refine ⟨Text.Utf8.lossy
    ((data.extract 16 (16 + versionSize)).toList.takeWhile (· != 0)).toArray, ?_⟩
  unfold read
  rw [if_neg (by omega)]
  simp only [(takes_le32 _).evalAt_eq hfields.signature, (takes_le32 _).evalAt_eq hfields.version,
    (takes_le16 _).evalAt_eq hfields.major, (takes_le16 _).evalAt_eq hfields.minor,
    (takes_le32 _).evalAt_eq hfields.reserved, ok_bind, hversionValue, ne_eq, not_true_eq_false,
    if_false, (takes_le16 _).evalAt_eq hfields.flags, (takes_le16 _).evalAt_eq hfields.count]
  rw [if_neg (by omega), if_neg (count_accepted hstreams (by omega)), hcountValue]
  cases readHeaders data streams.length (16 + versionSize + 4) [] <;> rfl

/-- What written metadata give a reader: headers with the names of the streams, which place them,
behind fields that are in place. -/
theorem exists_read {version : String} {streams : List (String × Bytes)} {data : Bytes}
    (hdata : encode version streams = .ok data) (hstreams : IsDirectory streams) :
    ∃ versionSize headers, versionSize = Bytes.align4 (version.utf8ByteSize + 1) ∧
      headersFrom (20 + versionSize + directorySize streams) streams = .ok headers ∧
      Fields data versionSize streams headers ∧
      List.Forall₂ (Places data) headers streams ∧
      (∀ header ∈ headers, header.name ∈ StreamHeader.validNames) ∧
      (headers.map (·.name)).Nodup ∧
      ∃ text, read data =
        (readHeaders data streams.length (16 + versionSize + 4) []).map fun streams =>
          { majorVersion := 1, minorVersion := 1, reserved := 0
            versionLength := versionSize.toUInt32, version := text, flags := 0, streams } := by
  obtain ⟨headers, hheaders, hversion, hfields⟩ := fields_of_encode hdata
  have hnames := names_headersFrom hheaders
  have hplaces : List.Forall₂ (Places data) headers streams := by
    refine forall₂_headersFrom hheaders ?_
    rw [show 20 + Bytes.align4 (version.utf8ByteSize + 1) =
      16 + Bytes.align4 (version.utf8ByteSize + 1) + 4 by omega]
    exact hfields.streams
  have hfour : 4 ≤ Bytes.align4 (version.utf8ByteSize + 1) := by
    rw [Bytes.align4]
    omega
  refine ⟨_, headers, rfl, hheaders, hfields, hplaces, ?_, ?_,
    read_of_fields hfields hversion hfour hstreams⟩
  · intro header hheader
    have hname := List.mem_map_of_mem (f := (·.name)) hheader
    rw [hnames] at hname
    obtain ⟨stream, hstream, hsame⟩ := List.mem_map.mp hname
    exact hsame ▸ hstreams.valid stream hstream
  · rw [hnames]
    exact hstreams.distinct

/-- Metadata that a word can measure is read back with headers that place its streams. -/
theorem read_encode {version : String} {streams : List (String × Bytes)} {data : Bytes}
    (hdata : encode version streams = .ok data) (hstreams : IsDirectory streams)
    (hsize : data.size < 0x100000000) :
    ∃ root, read data = .ok root ∧
      headersFrom (20 + Bytes.align4 (version.utf8ByteSize + 1) + directorySize streams) streams =
        .ok root.streams ∧
      List.Forall₂ (Places data) root.streams streams := by
  obtain ⟨_, headers, rfl, hheaders, hfields, hplaces, hvalid, hdistinct, text, hread⟩ :=
    exists_read hdata hstreams
  have hlength : headers.length = streams.length := hplaces.length_eq
  have hranges : ∀ header ∈ headers, checkRange data header = .ok () := by
    intro header hheader
    obtain ⟨stream, _, hstream⟩ := exists_of_forall₂ hplaces hheader
    exact checkRange_of_places hstream hsize
  rw [← hlength, readHeaders_eq [] hfields.headers hvalid hranges hdistinct] at hread
  exact ⟨_, hread, hheaders, hplaces⟩

/-- What a root was read from: the version stands up to a zero byte in a field of its own, whose
length comes before it, and the headers of the streams stand behind this field. -/
theorem read_eq_ok {data : Bytes} {root : Root} (hread : read data = .ok root) :
    ∃ length count, le32.evalAt data 12 = .ok length ∧
      root.version = Text.Utf8.lossy
        ((data.extract 16 (16 + length.toNat)).toList.takeWhile (· != 0)).toArray ∧
      readHeaders data count (16 + length.toNat + 4) [] = .ok root.streams := by
  obtain ⟨_, hread⟩ := guard_eq_ok_iff.mp hread
  obtain ⟨_, _, hread⟩ := bind_eq_ok_iff.mp hread
  obtain ⟨_, hread⟩ := guard_eq_ok_iff.mp hread
  obtain ⟨length, hlength, hread⟩ := bind_eq_ok_iff.mp hread
  obtain ⟨_, hread⟩ := guard_eq_ok_iff.mp hread
  obtain ⟨_, _, hread⟩ := bind_eq_ok_iff.mp hread
  obtain ⟨count, _, hread⟩ := bind_eq_ok_iff.mp hread
  obtain ⟨_, hread⟩ := guard_eq_ok_iff.mp hread
  obtain ⟨_, hheaders, hread⟩ := bind_eq_ok_iff.mp hread
  obtain ⟨_, _, hread⟩ := bind_eq_ok_iff.mp hread
  obtain ⟨_, _, hread⟩ := bind_eq_ok_iff.mp hread
  obtain ⟨_, _, hread⟩ := bind_eq_ok_iff.mp hread
  obtain rfl := pure_eq_ok_iff.mp hread
  exact ⟨length, count.toNat, hlength, rfl, hheaders⟩

/-- The header that is found for a name places the stream with this name. -/
theorem stream?_eq {root : Root} {data : Bytes} {streams : List (String × Bytes)}
    (hplaces : List.Forall₂ (Places data) root.streams streams)
    (hdistinct : (streams.map (·.1)).Nodup) (stream : String × Bytes) (hstream : stream ∈ streams) :
    ∃ header, root.stream? stream.1 = some header ∧ Places data header stream := by
  unfold stream?
  generalize root.streams = headers at hplaces
  induction hplaces with
  | nil => cases hstream
  | @cons header first headers streams hfirst _ ih =>
    rw [List.map_cons, List.nodup_cons] at hdistinct
    rcases List.mem_cons.mp hstream with rfl | hstream
    · exact ⟨header, by simp [hfirst.name], hfirst⟩
    · have hne : header.name ≠ stream.1 := by
        rw [hfirst.name]
        rintro heq
        exact hdistinct.1 (heq ▸ List.mem_map_of_mem hstream)
      rw [List.find?_cons_of_neg (by simpa using hne)]
      exact ih hdistinct.2 hstream

theorem streamData?_eq {root : Root} {data : Bytes} {streams : List (String × Bytes)}
    (hplaces : List.Forall₂ (Places data) root.streams streams)
    (hdistinct : (streams.map (·.1)).Nodup) (stream : String × Bytes) (hstream : stream ∈ streams) :
    root.streamData? data stream.1 = some stream.2.pad4 := by
  obtain ⟨header, hheader, hplace⟩ := stream?_eq hplaces hdistinct stream hstream
  have hle := hplace.at_offset.size_le
  have hextract := hplace.at_offset.extract_eq
  rw [← hplace.size] at hle hextract
  rw [streamData?, hheader]
  simp only [Option.bind_eq_bind, Option.bind_some]
  rw [if_pos hle, hextract]

section Size

variable {version : String} {streams : List (String × Bytes)}

/-- The number of bytes of metadata. -/
def encodedSize (version : String) (streams : List (String × Bytes)) : Nat :=
  20 + Bytes.align4 (version.utf8ByteSize + 1) + directorySize streams +
    (Bytes.concat (streams.map (·.2.pad4))).size

theorem size_encode {data : Bytes} (hdata : encode version streams = .ok data) :
    data.size = encodedSize version streams := by
  obtain ⟨headers, _, _, hfields⟩ := fields_of_encode hdata
  have hsize := hfields.size
  unfold encodedSize
  omega

/-- Streams that end within the offsets of 32 bits leave it to the streams behind them whether all
can be placed. -/
theorem exists_headersFrom_append {position : Nat} {rest : List (String × Bytes)}
    (hsize : position + (Bytes.concat (streams.map (·.2.pad4))).size < 0x100000000)
    (hrest : ∃ headers,
      headersFrom (position + (Bytes.concat (streams.map (·.2.pad4))).size) rest = .ok headers) :
    ∃ headers, headersFrom position (streams ++ rest) = .ok headers := by
  induction streams generalizing position with
  | nil => exact hrest
  | cons stream streams ih =>
    rw [List.map_cons, Bytes.concat_cons, Array.size_append, Bytes.size_pad4] at hsize hrest
    rw [← Nat.add_assoc] at hrest
    obtain ⟨headers, hheaders⟩ := ih (by omega) hrest
    rw [List.cons_append, headersFrom]
    simp only
    rw [if_neg (by simp only [Bool.or_eq_true, decide_eq_true_eq]; omega)]
    exact ⟨_, bind_eq_ok_iff.mpr ⟨headers, hheaders, rfl⟩⟩

theorem exists_encode_of_headers {headers : List StreamHeader} (hstreams : IsDirectory streams)
    (hheaders : headersFrom (20 + Bytes.align4 (version.utf8ByteSize + 1) + directorySize streams)
      streams = .ok headers)
    (hversion : Bytes.align4 (version.utf8ByteSize + 1) ≤ 0xFFFFFFFF) :
    ∃ data, encode version streams = .ok data ∧ data.size = encodedSize version streams := by
  have hlength := hstreams.length_le
  have hencode : ∃ data, encode version streams = .ok data := by
    simp only [encode, hheaders, ok_bind]
    rw [if_neg (by omega), if_neg (by omega)]
    exact ⟨_, rfl⟩
  obtain ⟨data, hdata⟩ := hencode
  exact ⟨data, hdata, size_encode hdata⟩

/-- Metadata of less than four gigabytes can be written. -/
theorem exists_encode (hstreams : IsDirectory streams)
    (hsize : encodedSize version streams < 0x100000000) :
    ∃ data, encode version streams = .ok data ∧ data.size = encodedSize version streams := by
  obtain ⟨headers, hheaders⟩ : ∃ headers, headersFrom (20 +
      Bytes.align4 (version.utf8ByteSize + 1) + directorySize streams) (streams ++ []) =
        .ok headers :=
    exists_headersFrom_append hsize ⟨[], rfl⟩
  rw [List.append_nil] at hheaders
  refine exists_encode_of_headers hstreams hheaders ?_
  unfold encodedSize at hsize
  omega

/-- Only the start and the size of the last stream are held against the offsets of 32 bits, not
where it ends. -/
theorem exists_encode_concat {name : String} {last : Bytes}
    (hstreams : IsDirectory (streams ++ [(name, last)]))
    (hstart : encodedSize version (streams ++ [(name, last)]) - Bytes.align4 last.size ≤ 0xFFFFFFFF)
    (hlast : Bytes.align4 last.size ≤ 0xFFFFFFFF) :
    ∃ data, encode version (streams ++ [(name, last)]) = .ok data ∧
      data.size = encodedSize version (streams ++ [(name, last)]) := by
  have hsize : encodedSize version (streams ++ [(name, last)]) =
      20 + Bytes.align4 (version.utf8ByteSize + 1) + directorySize (streams ++ [(name, last)]) +
        (Bytes.concat (streams.map (·.2.pad4))).size + Bytes.align4 last.size := by
    simp only [encodedSize, List.map_append, List.map_singleton, Bytes.concat_append,
      Bytes.concat_cons, Bytes.concat_nil, Array.append_empty, Array.size_append, Bytes.size_pad4]
    omega
  rw [hsize] at hstart
  have hplaced : ∃ headers, headersFrom (20 + Bytes.align4 (version.utf8ByteSize + 1) +
      directorySize (streams ++ [(name, last)])) (streams ++ [(name, last)]) = .ok headers := by
    refine exists_headersFrom_append (by omega) ?_
    rw [headersFrom]
    simp only
    rw [if_neg (by simp only [Bool.or_eq_true, decide_eq_true_eq]; omega)]
    exact ⟨_, rfl⟩
  obtain ⟨headers, hheaders⟩ := hplaced
  exact exists_encode_of_headers hstreams hheaders (by omega)

end Size

end Root

end PortablePdb
