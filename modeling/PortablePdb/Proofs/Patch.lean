import PortablePdb.Proofs.Container
import PortablePdb.Proofs.Overwriting

namespace PortablePdb

namespace Root

variable {version name : String} {head : Bytes} {rest : List (String × Bytes)} {data : Bytes}

theorem headersFrom_congr {other : Bytes} (hsize : other.size = head.size) (position : Nat) :
    headersFrom position ((name, other) :: rest) = headersFrom position ((name, head) :: rest) := by
  simp only [headersFrom, hsize]

/-- The first stream stands where the streams start. -/
theorem stream?_first {root : Root} {position : Nat}
    (hheaders : headersFrom position ((name, head) :: rest) = .ok root.streams) :
    ∃ header, root.stream? name = some header ∧ header.offset.toNat = position := by
  obtain ⟨header, rest, hstreams, hname, hposition, _, _⟩ := headersFrom_cons hheaders
  refine ⟨header, ?_, hposition⟩
  rw [stream?, hstreams]
  exact List.find?_cons_of_pos (by simp [hname])

/-- Metadata whose first stream is replaced by one of the same size differ in this stream only. -/
theorem encode_replace (hdata : encode version ((name, head) :: rest) = .ok data) :
    ∃ before after, before.size = 20 + Bytes.align4 (version.utf8ByteSize + 1) +
        directorySize ((name, head) :: rest) ∧
      data = before ++ (head.pad4 ++ after) ∧
      ∀ other : Bytes, other.size = head.size →
        encode version ((name, other) :: rest) = .ok (before ++ (other.pad4 ++ after)) := by
  obtain ⟨headers, hheaders, hversion, hparts⟩ := encode_eq hdata
  have hdirectory := size_concat_encode (names_headersFrom hheaders)
  refine ⟨Bytes.le32 signature ++ (Bytes.le16 1 ++ (Bytes.le16 1 ++ (Bytes.le32 0 ++
    (Bytes.le32 (Bytes.align4 (version.utf8ByteSize + 1)).toUInt32 ++
      (Bytes.pad4 ((Bytes.ofText version).push 0) ++ (Bytes.le16 0 ++
        (Bytes.le16 (rest.length + 1).toUInt16 ++ Bytes.concat (headers.map (·.encode))))))))),
    Bytes.concat (rest.map (·.2.pad4)), ?_, ?_, ?_⟩
  · simp only [Array.size_append, Bytes.size_le32, Bytes.size_le16, hdirectory, Bytes.size_pad4,
      Array.size_push, Bytes.size_ofText]
    omega
  · rw [hparts]
    simp only [List.map_cons, Bytes.concat_cons, List.length_cons, Array.append_assoc]
  intro other hsize
  have hexists : ∃ result, encode version ((name, other) :: rest) = .ok result := by
    obtain ⟨sameHeaders, hsame, hdata⟩ := bind_eq_ok_iff.mp hdata
    obtain ⟨hlength, hdata⟩ := guard_eq_ok_iff.mp hdata
    obtain ⟨hversion, _⟩ := guard_eq_ok_iff.mp hdata
    exact ⟨_, bind_eq_ok_iff.mpr ⟨sameHeaders, (headersFrom_congr hsize _).trans hsame,
      guard_eq_ok_iff.mpr ⟨hlength, guard_eq_ok_iff.mpr ⟨hversion, rfl⟩⟩⟩⟩
  obtain ⟨result, hresult⟩ := hexists
  obtain ⟨otherHeaders, hotherHeaders, _, hotherParts⟩ := encode_eq hresult
  have hsame : otherHeaders = headers :=
    Except.ok.inj (hotherHeaders.symm.trans ((headersFrom_congr hsize _).trans hheaders))
  rw [hresult, hotherParts, hsame]
  simp only [List.map_cons, Bytes.concat_cons, List.length_cons, Array.append_assoc]

/-- The header of the last stream tells where the streams before it end. -/
theorem headersFrom_concat {position : Nat} {streams : List (String × Bytes)} {name : String}
    {last : Bytes} {headers : List StreamHeader}
    (hheaders : headersFrom position (streams ++ [(name, last)]) = .ok headers) :
    ∃ before stop, stop = position + (Bytes.concat (streams.map (·.2.pad4))).size ∧
      stop ≤ 0xFFFFFFFF ∧ Bytes.align4 last.size ≤ 0xFFFFFFFF ∧
      headers = before ++ [⟨stop.toUInt32, (Bytes.align4 last.size).toUInt32, name⟩] ∧
      ∀ header ∈ before, header.offset.toNat + header.size.toNat ≤ stop := by
  induction streams generalizing position headers with
  | nil =>
    obtain ⟨hfits, hheaders⟩ := guard_eq_ok_iff.mp hheaders
    obtain ⟨_, hnil, hheaders⟩ := bind_eq_ok_iff.mp hheaders
    cases hnil
    simp only [Bool.or_eq_true, decide_eq_true_eq, not_or, Nat.not_lt] at hfits
    exact ⟨[], position, rfl, hfits.1, hfits.2, (pure_eq_ok_iff.mp hheaders).symm, nofun⟩
  | cons stream streams ih =>
    obtain ⟨first, rest, rfl, _, hposition, hsize, hrest⟩ := headersFrom_cons hheaders
    obtain ⟨before, stop, hstop, hlimit, hlast, rfl, hbefore⟩ := ih hrest
    refine ⟨first :: before, stop, ?_, hlimit, hlast, rfl, ?_⟩
    · rw [List.map_cons, Bytes.concat_cons, Array.size_append, Bytes.size_pad4, hstop]
      omega
    intro header hheader
    rcases List.mem_cons.mp hheader with rfl | hheader
    · omega
    · exact hbefore header hheader

/-- Metadata that no word can measure are refused, for the last stream ends behind what a word can
tell. -/
theorem read_overflow {version name : String} {streams : List (String × Bytes)} {last data : Bytes}
    (hdata : encode version (streams ++ [(name, last)]) = .ok data)
    (hstreams : IsDirectory (streams ++ [(name, last)])) (hsize : 0x100000000 ≤ data.size) :
    read data = reject (.streamOverflow (data.size - Bytes.align4 last.size).toUInt32
      (Bytes.align4 last.size).toUInt32) := by
  obtain ⟨versionSize, headers, _, hheaders, hfields, hplaces, hvalid, hdistinct, text, hread⟩ :=
    exists_read hdata hstreams
  obtain ⟨before, stop, hstop, hlimit, hlast, rfl, hbefore⟩ := headersFrom_concat hheaders
  have hend : data.size = stop + Bytes.align4 last.size := by
    have hlastForm : (Bytes.concat [last.pad4]).size = Bytes.align4 last.size := by
      simp [Bytes.concat_cons, Bytes.size_pad4]
    rw [hfields.size, hstop, List.map_append, Bytes.concat_append, Array.size_append,
      List.map_singleton, hlastForm]
    omega
  have hranges : ∀ header ∈ before, checkRange data header = .ok () := by
    intro header hheader
    have hle := hbefore header hheader
    unfold checkRange
    simp only
    rw [if_neg (by omega), if_neg (by omega)]
    rfl
  have hlength : streams.length = before.length := by
    simpa using hplaces.length_eq.symm
  have hat := hfields.headers
  rw [List.map_append, Bytes.concat_append] at hat
  rw [hread, List.length_append, hlength, List.length_singleton,
    readHeaders_append [] 1 hat.left (fun header hheader => hvalid header (by simp [hheader]))
      hranges (by simpa using (List.nodup_append.mp (by simpa using hdistinct)).1)]
  have hlastAt := hat.right
  rw [List.map_singleton, Bytes.concat_cons, Bytes.concat_nil, Array.append_empty] at hlastAt
  have hle := hlastAt.size_le
  have hstopValue : stop.toUInt32.toNat = stop :=
    UInt32.toNat_ofNat_of_lt' (by simp [UInt32.size]; omega)
  have hlastValue : (Bytes.align4 last.size).toUInt32.toNat = Bytes.align4 last.size :=
    UInt32.toNat_ofNat_of_lt' (by simp [UInt32.size]; omega)
  rw [readHeaders, if_neg (by omega), StreamHeader.readAt_encode (hvalid _ (by simp)) hlastAt,
    ok_bind, checkRange, hstopValue, hlastValue, if_pos (by omega), hend, Nat.add_sub_cancel]
  rfl

end Root

theorem Container.size_withId {data result : Bytes} {id : ContentId}
    (hresult : withId data id = .ok result) : result.size = data.size := by
  obtain ⟨root, _, hresult⟩ := bind_eq_ok_iff.mp hresult
  split at hresult
  · exact Bytes.size_overwrite hresult
  · cases hresult

namespace DebugTables

variable {tables : DebugTables} {id : ContentId} {entryPoint : Token} {typeSystemRows : RowCounts}
  {data : Bytes}

/-- The id of a container influences no other bytes than its own: those at the start of the first
stream. -/
theorem exists_around_id (hdata : tables.encode id entryPoint typeSystemRows = .ok data) :
    ∃ before after, data = before ++ (id.toBytes ++ after) ∧
      (∀ other : ContentId, tables.encode other entryPoint typeSystemRows =
        .ok (before ++ (other.toBytes ++ after))) ∧
      (data.size < 0x100000000 → ∃ root header, Root.read data = .ok root ∧
        root.stream? Container.streamName = some header ∧ header.offset.toNat = before.size) := by
  obtain ⟨form, hform, hroot⟩ := bind_eq_ok_iff.mp hdata
  obtain ⟨tail, htail⟩ : ∃ tail, ∀ id : ContentId,
      Container.encodeHead id entryPoint typeSystemRows = id.toBytes ++ tail :=
    ⟨_, fun id => Container.encodeHead_eq id entryPoint typeSystemRows⟩
  have hpadded (id : ContentId) : (Container.encodeHead id entryPoint typeSystemRows).pad4 =
      id.toBytes ++ tail := by
    rw [Container.pad4_encodeHead, htail]
  obtain ⟨before, after, hbefore, hparts, hreplace⟩ := Root.encode_replace hroot
  refine ⟨before, tail ++ after, ?_, ?_, ?_⟩
  · rw [hparts, hpadded, Array.append_assoc]
  · intro other
    have hheads : (Container.encodeHead other entryPoint typeSystemRows).size =
        (Container.encodeHead id entryPoint typeSystemRows).size := by
      rw [htail, htail, Array.size_append, Array.size_append, ContentId.size_toBytes,
        ContentId.size_toBytes]
    have hresult := hreplace _ hheads
    rw [hpadded, Array.append_assoc] at hresult
    exact bind_eq_ok_iff.mpr ⟨form, hform, hresult⟩
  · intro hsize
    obtain ⟨root, hread, hheaders, _⟩ :=
      Root.read_encode hroot (isDirectory_streams tables id entryPoint typeSystemRows form) hsize
    obtain ⟨header, hheader, hoffset⟩ := Root.stream?_first hheaders
    exact ⟨root, header, hread, hheader, hoffset.trans hbefore.symm⟩

/-- A container that a word can measure becomes, by a new id, the container written with this id. -/
theorem withId_encode (hdata : tables.encode id entryPoint typeSystemRows = .ok data)
    (hsize : data.size < 0x100000000) (other : ContentId) :
    ∃ result, tables.encode other entryPoint typeSystemRows = .ok result ∧
      Container.withId data other = .ok result := by
  obtain ⟨before, after, hparts, hother, hplace⟩ := exists_around_id hdata
  obtain ⟨root, header, hread, hheader, hoffset⟩ := hplace hsize
  refine ⟨_, hother other, bind_eq_ok_iff.mpr ⟨root, hread, ?_⟩⟩
  rw [hheader]
  simp only
  rw [hoffset, hparts]
  exact Bytes.overwrite_append (by rw [ContentId.size_toBytes, ContentId.size_toBytes])

/-- A container that no word can measure is refused. -/
theorem read_overflow (hdata : tables.encode id entryPoint typeSystemRows = .ok data)
    (hsize : 0x100000000 ≤ data.size) :
    Root.read data = reject (.streamOverflow (data.size - Bytes.align4 tables.blobs.size).toUInt32
      (Bytes.align4 tables.blobs.size).toUInt32) := by
  obtain ⟨form, _, hroot⟩ := bind_eq_ok_iff.mp hdata
  have hlast : tables.streams id entryPoint typeSystemRows form =
      (tables.streams id entryPoint typeSystemRows form).take 5 ++ [("#Blob", tables.blobs)] := rfl
  have hdirectory := isDirectory_streams tables id entryPoint typeSystemRows form
  rw [hlast] at hdirectory
  exact Root.read_overflow hroot hdirectory hsize

theorem withId_overflow (hdata : tables.encode id entryPoint typeSystemRows = .ok data)
    (hsize : 0x100000000 ≤ data.size) (other : ContentId) :
    Container.withId data other = reject (.streamOverflow
      (data.size - Bytes.align4 tables.blobs.size).toUInt32
      (Bytes.align4 tables.blobs.size).toUInt32) := by
  rw [Container.withId, read_overflow hdata hsize]
  rfl

end DebugTables

end PortablePdb
