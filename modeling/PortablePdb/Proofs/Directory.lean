import PortablePdb.Proofs.Names
import PortablePdb.Proofs.Root

namespace PortablePdb

/-- The form of a character has no zero byte, unless the character is zero. -/
theorem zero_notMem_utf8EncodeChar {c : Char} (hc : c ≠ Char.ofNat 0) :
    0 ∉ String.utf8EncodeChar c := by
  have hval : c.val.toNat ≠ 0 := fun hzero => hc (Char.toNat_inj.mp hzero)
  have hne {n : Nat} (hpos : 0 < n) (hlt : n < 256) : (0 : UInt8) ≠ UInt8.ofNat n := by
    intro hzero
    have hnat := congrArg UInt8.toNat hzero
    simp at hnat
    omega
  simp only [String.utf8EncodeChar]
  split
  · exact fun hmem => hne (by omega) (by omega) (List.mem_singleton.mp hmem)
  · split
    · simp only [List.mem_cons, List.not_mem_nil, or_false, not_or]
      exact ⟨hne (by omega) (by omega), hne (by omega) (by omega)⟩
    · split
      · simp only [List.mem_cons, List.not_mem_nil, or_false, not_or]
        exact ⟨hne (by omega) (by omega), hne (by omega) (by omega), hne (by omega) (by omega)⟩
      · simp only [List.mem_cons, List.not_mem_nil, or_false, not_or]
        exact ⟨hne (by omega) (by omega), hne (by omega) (by omega), hne (by omega) (by omega),
          hne (by omega) (by omega)⟩

/-- The bytes of a text without the zero character are not zero. -/
theorem Bytes.zero_notMem_ofText {text : String} (htext : Char.ofNat 0 ∉ text.toList) :
    0 ∉ (ofText text).toList := by
  have hform : (ofText text).toList = text.toList.flatMap String.utf8EncodeChar := by
    rw [ofText, String.toUTF8_eq_toByteArray, ← String.utf8Encode_toList]
    simp [List.utf8Encode]
  rw [hform, List.mem_flatMap]
  rintro ⟨c, hc, hzero⟩
  exact zero_notMem_utf8EncodeChar (fun heq => htext (heq ▸ hc)) hzero

namespace Root

variable {version : String} {streams : List (String × Bytes)} {data : Bytes} {root : Root}

/-- Headers lay streams out from a position on if they follow each other from there on, with all
their offsets and sizes multiples of four. -/
structure LaysOut (position : Nat) (headers : List StreamHeader) : Prop where
  le_offset : ∀ header ∈ headers, position ≤ header.offset.toNat
  aligned : ∀ header ∈ headers, header.offset.toNat % 4 = 0 ∧ header.size.toNat % 4 = 0
  disjoint : headers.Pairwise fun first second =>
    first.offset.toNat + first.size.toNat ≤ second.offset.toNat

theorem directorySize_mod (streams : List (String × Bytes)) : directorySize streams % 4 = 0 := by
  induction streams with
  | nil => rfl
  | cons stream streams ih =>
    have hname := Bytes.align4_mod (stream.1.utf8ByteSize + 1)
    change (8 + Bytes.align4 (stream.1.utf8ByteSize + 1) + directorySize streams) % 4 = 0
    omega

theorem laysOut_headersFrom {position : Nat} {headers : List StreamHeader}
    (hheaders : headersFrom position streams = .ok headers) (haligned : position % 4 = 0) :
    LaysOut position headers := by
  induction streams generalizing position headers with
  | nil =>
    cases hheaders
    exact ⟨nofun, nofun, .nil⟩
  | cons stream streams ih =>
    obtain ⟨first, rest, rfl, _, hposition, hsize, hrest⟩ := headersFrom_cons hheaders
    have hpadded := Bytes.align4_mod stream.2.size
    have hlater := ih hrest (by omega)
    refine ⟨?_, ?_, .cons ?_ hlater.disjoint⟩
    · intro header hheader
      obtain rfl | hheader := List.mem_cons.mp hheader
      · exact Nat.le_of_eq hposition.symm
      · have hle := hlater.le_offset header hheader
        omega
    · intro header hheader
      obtain rfl | hheader := List.mem_cons.mp hheader
      · exact ⟨hposition ▸ haligned, hsize ▸ hpadded⟩
      · exact hlater.aligned header hheader
    · intro header hheader
      rw [hposition, hsize]
      exact hlater.le_offset header hheader

/-- A version without the zero character is read back. -/
theorem version_of_encode (hversion : Char.ofNat 0 ∉ version.toList)
    (hdata : encode version streams = .ok data) (hread : read data = .ok root) :
    root.version = version := by
  obtain ⟨_, _, hlimit, hfields⟩ := fields_of_encode hdata
  obtain ⟨_, _, _, hparts⟩ := encode_eq hdata
  have hversionSize : (Bytes.align4 (version.utf8ByteSize + 1)).toUInt32.toNat =
      Bytes.align4 (version.utf8ByteSize + 1) :=
    UInt32.toNat_ofNat_of_lt' (by simp [UInt32.size]; omega)
  have hfield : data.HasAt 16 ((Bytes.ofText version).push 0) :=
    (Bytes.hasAt_of_eq hparts).right.right.right.right.right.left.inner (Bytes.hasAt_pad4 _)
  have hfits : ((Bytes.ofText version).push 0).size ≤ Bytes.align4 (version.utf8ByteSize + 1) := by
    rw [Array.size_push, Bytes.size_ofText]
    exact Bytes.le_align4 _
  obtain ⟨rest, hwindow⟩ := hfield.toList_extract hfits
  have hnonzero : ∀ byte ∈ (Bytes.ofText version).toList, (byte != 0) = true := by
    intro byte hbyte
    exact bne_iff_ne.mpr fun hzero => Bytes.zero_notMem_ofText hversion (hzero ▸ hbyte)
  obtain ⟨length, _, hlength, htext, _⟩ := read_eq_ok hread
  rw [(Reader.takes_le32 _).evalAt_eq hfields.version] at hlength
  cases hlength
  rw [htext, hversionSize, hwindow, Array.toList_push, List.append_assoc,
    List.takeWhile_append_of_pos hnonzero, List.singleton_append,
    List.takeWhile_cons_of_neg (by simp), List.append_nil, Array.toArray_toList,
    Text.Utf8.lossy_ofText]

/-- Metadata of up to seven streams with different names, and of less than four gigabytes, are
written and read back: the version, the streams in order, each in a range of its own behind the
directory, and under its name its bytes with zeros up to a multiple of four. -/
theorem written_metadata_read_back (hversion : Char.ofNat 0 ∉ version.toList)
    (hstreams : IsDirectory streams) (hsize : encodedSize version streams < 0x100000000) :
    ∃ data root, encode version streams = .ok data ∧ read data = .ok root ∧
      data.size = encodedSize version streams ∧ root.version = version ∧
      root.streams.map (·.name) = streams.map (·.1) ∧
      LaysOut (20 + Bytes.align4 (version.utf8ByteSize + 1) + directorySize streams) root.streams ∧
      (∀ header ∈ root.streams, header.offset.toNat + header.size.toNat ≤ data.size) ∧
      ∀ stream ∈ streams, root.streamData? data stream.1 = some stream.2.pad4 := by
  obtain ⟨data, hdata, hdataSize⟩ := exists_encode hstreams hsize
  obtain ⟨root, hread, hheaders, hplaces⟩ := read_encode hdata hstreams (hdataSize ▸ hsize)
  refine ⟨data, root, hdata, hread, hdataSize, version_of_encode hversion hdata hread,
    names_headersFrom hheaders, laysOut_headersFrom hheaders ?_, ?_,
    streamData?_eq hplaces hstreams.distinct⟩
  · have hversion := Bytes.align4_mod (version.utf8ByteSize + 1)
    have hdirectory := directorySize_mod streams
    omega
  · intro header hheader
    obtain ⟨stream, _, hplace⟩ := exists_of_forall₂ hplaces hheader
    have hle := hplace.at_offset.size_le
    rwa [← hplace.size] at hle

/-- A version that takes two bytes for a character, and streams of which the last one is empty, so
that it starts where the data end. -/
theorem written_metadata_read_back_emptyStream : ∃ data root,
    encode "é" [("#Strings", #[1, 2, 3, 4, 5]), ("#~", #[])] = .ok data ∧ read data = .ok root ∧
      data.size = 64 ∧ root.version = "é" ∧ root.streams.map (·.name) = ["#Strings", "#~"] ∧
      root.streamData? data "#Strings" = some #[1, 2, 3, 4, 5, 0, 0, 0] ∧
      root.streamData? data "#~" = some #[] := by
  have hversion : Char.ofNat 0 ∉ "é".toList := by decide
  have hdirectory : IsDirectory [("#Strings", #[1, 2, 3, 4, 5]), ("#~", #[])] :=
    ⟨nofun, by decide, by decide⟩
  obtain ⟨data, root, hdata, hread, hsize, hversion, hnames, _, _, hstreams⟩ :=
    written_metadata_read_back hversion hdirectory (by decide)
  refine ⟨data, root, hdata, hread, hsize.trans (by decide), hversion, hnames, ?_, ?_⟩
  · exact hstreams ("#Strings", #[1, 2, 3, 4, 5]) (by simp)
  · exact hstreams ("#~", #[]) (by simp)

end Root

end PortablePdb
