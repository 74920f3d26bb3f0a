import PortablePdb.Proofs.Generation

namespace PortablePdb

/-- A container that verifies itself. It carries an id that is derived from the container in which
zeros stand in the place of the id. -/
def Container.Verifies (data : Bytes) (id : ContentId) : Prop :=
  ∃ root header head blank, Root.read data = .ok root ∧
    root.stream? streamName = some header ∧
    root.streamData? data streamName = some head ∧ ContentId.ofBytes head = .ok id ∧
    Bytes.overwrite data header.offset.toNat (Bytes.zeros ContentId.size) = .ok blank ∧
    ContentId.ofContent blank = id

theorem ContentId.toBytes_zero : zero.toBytes = Bytes.zeros size := by
  decide

/-- Patching a container of zeros with the id that is derived from it makes a container that
verifies itself. -/
theorem DebugTables.verifies_of_withId {tables : DebugTables} {entryPoint : Token}
    {typeSystemRows : RowCounts} {blank data : Bytes}
    (hblank : tables.encode .zero entryPoint typeSystemRows = .ok blank)
    (hdata : Container.withId blank (ContentId.ofContent blank) = .ok data) :
    Container.Verifies data (ContentId.ofContent blank) := by
  have hsize : blank.size < 0x100000000 := by
    by_contra hlarge
    rw [withId_overflow hblank (Nat.not_lt.mp hlarge)] at hdata
    cases hdata
  obtain ⟨result, hencode, hsame⟩ := withId_encode hblank hsize (ContentId.ofContent blank)
  obtain rfl : data = result := Except.ok.inj (hdata.symm.trans hsame)
  rw [← Container.size_withId hdata] at hsize
  obtain ⟨before, after, hparts, hother, hplace⟩ := exists_around_id hencode
  obtain ⟨root, header, hread, hheader, hoffset⟩ := hplace hsize
  obtain ⟨sameRoot, _, hsameRead, hhead, _⟩ := exists_streams hencode hsize
  obtain rfl : root = sameRoot := Except.ok.inj (hread.symm.trans hsameRead)
  refine ⟨root, header, _, blank, hread, hheader, hhead,
    (Container.isHead_encodeHead _ _ _).id_eq, ?_, rfl⟩
  -- The container of zeros has the same bytes around its id.
  have hzeros : blank = before ++ (Bytes.zeros ContentId.size ++ after) := by
    rw [← ContentId.toBytes_zero]
    exact Except.ok.inj (hblank.symm.trans (hother .zero))
  rw [hoffset, hzeros, hparts]
  exact Bytes.overwrite_append (by rw [ContentId.size_toBytes, Bytes.zeros, Array.size_replicate])

namespace DebugTables

/-- Tables without rows, with a heap of blobs. -/
def ofBlobs (blobs : Bytes) : DebugTables where
  strings := #[0]
  blobs

theorem encodeStream_ofBlobs (blobs : Bytes) :
    ∃ form, (ofBlobs blobs).encodeStream RowCounts.none = .ok form ∧ form.size = 24 := by
  have hpresent : (ofBlobs blobs).present = [] := rfl
  have hrows (layout : Layout) : (ofBlobs blobs).encodeAllRows layout = .ok #[] := rfl
  simp only [encodeStream, hpresent, hrows, ok_bind]
  refine ⟨_, rfl, ?_⟩
  have hflags : (#[2, 0, ((ofBlobs blobs).layout RowCounts.none).heapSizes, 1] : Bytes).size = 4 :=
    rfl
  simp only [List.foldl_nil, Array.append_empty, Bytes.size_pad4, Array.size_append,
    Bytes.size_le32, Bytes.size_le64, hflags, Bytes.align4]

/-- Blobs are written if a word can tell how many bytes they are, however far they extend. -/
theorem exists_encode_ofBlobs (id : ContentId) {blobs : Bytes}
    (hblobs : Bytes.align4 blobs.size ≤ 0xFFFFFFFF) :
    ∃ data, (ofBlobs blobs).encode id ⟨0⟩ RowCounts.none = .ok data ∧
      data.size = 188 + Bytes.align4 blobs.size := by
  obtain ⟨form, hform, hstream⟩ := encodeStream_ofBlobs blobs
  have hlast : (ofBlobs blobs).streams id ⟨0⟩ RowCounts.none form =
      ((ofBlobs blobs).streams id ⟨0⟩ RowCounts.none form).take 5 ++ [("#Blob", blobs)] := rfl
  have hdirectory := isDirectory_streams (ofBlobs blobs) id ⟨0⟩ RowCounts.none form
  have hsize : Root.encodedSize Container.version
      ((ofBlobs blobs).streams id ⟨0⟩ RowCounts.none form) = 188 + Bytes.align4 blobs.size := by
    have hslots : (Container.usedSlots RowCounts.none).length = 0 := by decide
    have hrest : 160 + 4 * 0 + Bytes.align4 24 + Bytes.align4 1 + Bytes.align4 0 = 188 := rfl
    rw [encodedSize_streams, hslots, hstream, ← hrest]
    rfl
  have hstart : Root.encodedSize Container.version
      ((ofBlobs blobs).streams id ⟨0⟩ RowCounts.none form) - Bytes.align4 blobs.size ≤
        0xFFFFFFFF := by
    omega
  rw [hlast] at hdirectory hsize hstart
  obtain ⟨data, hdata, hdataSize⟩ := Root.exists_encode_concat hdirectory hstart hblobs
  exact ⟨data, bind_eq_ok_iff.mpr ⟨form, hform, hdata⟩, hdataSize.trans hsize⟩

end DebugTables

namespace Generation

variable {module : Module} {options : GeneratorOptions}

/-- An id that the caller or the assembly says is not a derived one. -/
theorem source_ne_minted {id : ContentId} {source : ContentIdSource}
    (hcontentId : contentIdOf module options = .ok (some (id, source))) : source ≠ .minted := by
  unfold contentIdOf at hcontentId
  split at hcontentId
  · cases hcontentId
    decide
  · cases hcontentId
    decide
  · split at hcontentId <;> cases hcontentId

/-- Replacing the content id of a container is writing the container with the new id, unless the
container is so large that its last stream ends behind the offsets of 32 bits, where the reader of
the old container refuses it. A generated container whose id is derived from its content therefore
verifies itself. -/
theorem contentId_replaceable (tables : DebugTables) (other : ContentId) (module : Module)
    (decompiler : Decompiler) (options : GeneratorOptions) (compress : Bytes → Bytes)
    (newPool : PoolCreation) :
    (∀ (id : ContentId) (entryPoint : Token) (typeSystemRows : RowCounts) (data : Bytes),
      tables.encode id entryPoint typeSystemRows = .ok data →
      ∃ result, tables.encode other entryPoint typeSystemRows = .ok result ∧
        Container.withId data other =
          if data.size < 0x100000000 then .ok result
          else reject (.streamOverflow (data.size - Bytes.align4 tables.blobs.size).toUInt32
            (Bytes.align4 tables.blobs.size).toUInt32)) ∧
    ∀ generated : GeneratedContainer,
      generate module decompiler options compress newPool = .ok generated →
      generated.report.contentIdSource = .minted →
      Container.Verifies generated.data generated.report.contentId := by
  constructor
  · intro id entryPoint typeSystemRows data hdata
    by_cases hsize : data.size < 0x100000000
    · obtain ⟨result, hresult, hpatched⟩ := DebugTables.withId_encode hdata hsize other
      exact ⟨result, hresult, hpatched.trans (if_pos hsize).symm⟩
    · obtain ⟨before, after, _, hother, _⟩ := DebugTables.exists_around_id hdata
      have hpatched := DebugTables.withId_overflow hdata (Nat.not_lt.mp hsize) other
      exact ⟨_, hother other, hpatched.trans (if_neg hsize).symm⟩
  · intro generated hgenerated hminted
    obtain ⟨builder, tables, diagnostics, hgenerates⟩ := exists_generates hgenerated
    obtain ⟨contentId, hcontentId, hencode⟩ := hgenerates.encode_eq
    cases contentId with
    | some given =>
      obtain ⟨written, _, hencode⟩ := bind_eq_ok_iff.mp hencode
      obtain ⟨_, hid⟩ := Prod.mk.inj (pure_eq_ok_iff.mp hencode)
      have hsource := (Prod.mk.inj hid).2
      exact absurd (hsource.trans hminted) (source_ne_minted hcontentId)
    | none =>
      obtain ⟨blank, hblank, hencode⟩ := bind_eq_ok_iff.mp hencode
      obtain ⟨written, hwritten, hencode⟩ := bind_eq_ok_iff.mp hencode
      obtain ⟨hdata, hid⟩ := Prod.mk.inj (pure_eq_ok_iff.mp hencode)
      rw [← hdata, ← (Prod.mk.inj hid).1]
      exact DebugTables.verifies_of_withId hblank hwritten

/-- The run of the sample module when nobody says an id. -/
theorem exists_minted_sample : ∃ generated,
    generate sampleModule sampleDecompiler {} = .ok generated ∧
      generated.report.contentIdSource = .minted := by
  obtain ⟨blobs, guids, hmerge, hblobs, hguids⟩ := exists_mergeAll_sample
  obtain ⟨blank, hblank, hsize⟩ := exists_ok_of_toOption_map size_encode_sampleTables
  have hfits : blank.size < 0x100000000 := by omega
  obtain ⟨data, _, hdata⟩ := DebugTables.withId_encode hblank hfits (ContentId.ofContent blank)
  have hassemble : ∃ report : GenerationReport, report.contentIdSource = .minted ∧
      assemble sampleModule none (outcomesOf sampleModule sampleDecompiler {} Deflate.deflate) =
        .ok ⟨data, report⟩ := by
    change ∃ report : GenerationReport, report.contentIdSource = .minted ∧ assemble sampleModule
      none (outcomesOf sampleModule sampleDecompiler sampleOptions Deflate.deflate) = _
    rw [outcomesOf_sample]
    unfold assemble
    rw [hmerge]
    exact ⟨_, rfl, bind_eq_ok_iff.mpr ⟨sampleTables, finish_sample hblobs hguids,
      bind_eq_ok_iff.mpr ⟨_, bind_eq_ok_iff.mpr ⟨blank, hblank,
        bind_eq_ok_iff.mpr ⟨data, hdata, rfl⟩⟩, rfl⟩⟩⟩
  obtain ⟨report, hminted, hgenerated⟩ := hassemble
  refine ⟨⟨data, report⟩, ?_, hminted⟩
  unfold generate generateWatched
  simp only [contentIdOf, GeneratorOptions.createPool, mapM_process]
  exact hgenerated

theorem contentId_replaceable_sample :
    (∃ data result, DebugTables.sampleTables.encode .zero ⟨0x06000001⟩ DebugTables.sampleRows =
        .ok data ∧ data.size < 0x100000000 ∧
      DebugTables.sampleTables.encode ⟨csharpLanguage, 7⟩ ⟨0x06000001⟩ DebugTables.sampleRows =
        .ok result ∧ Container.withId data ⟨csharpLanguage, 7⟩ = .ok result) ∧
    ∃ generated, generate sampleModule sampleDecompiler {} = .ok generated ∧
      generated.report.contentIdSource = .minted ∧
      Container.Verifies generated.data generated.report.contentId := by
  obtain ⟨hpatches, hverifies⟩ := contentId_replaceable DebugTables.sampleTables
    ⟨csharpLanguage, 7⟩ sampleModule sampleDecompiler {} Deflate.deflate fun _ => .ok ()
  constructor
  · obtain ⟨data, hdata, hsize⟩ := exists_ok_of_toOption_map DebugTables.size_encode_sample
    have hfits : data.size < 0x100000000 := by omega
    obtain ⟨result, hresult, hpatched⟩ := hpatches _ _ _ _ hdata
    rw [if_pos hfits] at hpatched
    exact ⟨data, result, hdata, hfits, hresult, hpatched⟩
  · obtain ⟨generated, hgenerated, hminted⟩ := exists_minted_sample
    exact ⟨generated, hgenerated, hminted, hverifies _ hgenerated hminted⟩

/-- Blobs that take as many bytes as a word can tell are written under each id. The reader refuses
the container, though, and no id takes the place of another one. -/
theorem contentId_not_replaceable_of_blobs : ∃ data result,
    (DebugTables.ofBlobs (Bytes.zeros 0xFFFFFFFC)).encode .zero ⟨0⟩ RowCounts.none = .ok data ∧
    (DebugTables.ofBlobs (Bytes.zeros 0xFFFFFFFC)).encode ⟨csharpLanguage, 7⟩ ⟨0⟩
      RowCounts.none = .ok result ∧
    Container.withId data ⟨csharpLanguage, 7⟩ = reject (.streamOverflow 188 0xFFFFFFFC) := by
  have hsize : Bytes.align4 (Bytes.zeros 0xFFFFFFFC).size = 0xFFFFFFFC := by
    rw [Bytes.size_zeros]
    rfl
  generalize Bytes.zeros 0xFFFFFFFC = blobs at hsize ⊢
  have hblobs : Bytes.align4 blobs.size ≤ 0xFFFFFFFF := by omega
  obtain ⟨data, hdata, hdataSize⟩ := DebugTables.exists_encode_ofBlobs .zero hblobs
  obtain ⟨result, hresult, _⟩ := DebugTables.exists_encode_ofBlobs ⟨csharpLanguage, 7⟩ hblobs
  refine ⟨data, result, hdata, hresult, ?_⟩
  have hrefused := DebugTables.withId_overflow hdata (by omega) ⟨csharpLanguage, 7⟩
  have hsame : (DebugTables.ofBlobs blobs).blobs = blobs := rfl
  rw [hdataSize, hsame, hsize] at hrefused
  exact hrefused

end Generation

end PortablePdb
