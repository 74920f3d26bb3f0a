import PortablePdb.Proofs.SequencePoints

namespace PortablePdb

namespace SequencePoints

open Reader Compressed

/-- Where the last visible point starts after one more point. -/
def startAfter (start : Option Start) (point : SequencePoint) : Option Start :=
  if point.isHidden then start else some (point.startLine, point.startColumn)

/-- A hidden point has no positions, and a visible one covers some text on lines that have a
compressed number. -/
structure IsCanonical (point : SequencePoint) : Prop where
  hidden : point.isHidden = true → point.startLine = 0 ∧ point.startColumn = 0 ∧
    point.endLine = 0 ∧ point.endColumn = 0
  writable : IsWritable point

/-- A point whose offset and line are in reach of those of the points before it. -/
structure Follows (offset : Option UInt32) (start : Option Start) (point : SequencePoint) :
    Prop where
  first_offset_le : offset = none → point.offset.toNat ≤ maxUInt
  reaches : ∀ last ∈ offset, OffsetReaches last point.offset
  first_line_le : point.isHidden = false → start = none → point.startLine.toNat ≤ maxUInt
  line_reaches : point.isHidden = false → ∀ last ∈ start, LineReaches last.1 point.startLine
  canonical : IsCanonical point

/-- Points each of which follows those before it. -/
structure Continue (offset : Option UInt32) (start : Option Start) (points : List SequencePoint) :
    Prop where
  first_offset_le : offset = none → ∀ first ∈ (points.map (·.offset)).head?, first.toNat ≤ maxUInt
  offsets : (offset.toList ++ points.map (·.offset)).IsChain OffsetReaches
  first_line_le : start = none → ∀ first ∈ (startLines points).head?, first.toNat ≤ maxUInt
  lines : ((start.map (·.1)).toList ++ startLines points).IsChain LineReaches
  canonical : ∀ point ∈ points, IsCanonical point

theorem continue_nil (offset : Option UInt32) (start : Option Start) :
    Continue offset start [] where
  first_offset_le _ := nofun
  offsets := by cases offset <;> simp
  first_line_le _ := nofun
  lines := by cases start <;> simp [startLines]
  canonical := nofun

theorem Follows.cons {offset : Option UInt32} {start : Option Start} {point : SequencePoint}
    {points : List SequencePoint} (hfollows : Follows offset start point)
    (hrest : Continue (some point.offset) (startAfter start point) points) :
    Continue offset start (point :: points) := by
  have hoffsets : (offset.toList ++ (point :: points).map (·.offset)).IsChain OffsetReaches := by
    cases offset with
    | none => exact hrest.offsets
    | some last => exact hrest.offsets.cons_cons (hfollows.reaches last rfl)
  have hcanonical : ∀ other ∈ point :: points, IsCanonical other :=
    List.forall_mem_cons.mpr ⟨hfollows.canonical, hrest.canonical⟩
  have hfirst (hnone : offset = none) :
      ∀ first ∈ ((point :: points).map (·.offset)).head?, first.toNat ≤ maxUInt := by
    rintro _ ⟨⟩
    exact hfollows.first_offset_le hnone
  -- a hidden point has no line, so that the lines go on from the visible point before it
  cases hhidden : point.isHidden with
  | true =>
    have hsame : startLines (point :: points) = startLines points := by simp [startLines, hhidden]
    have hstart : startAfter start point = start := if_pos hhidden
    rw [hstart] at hrest
    exact {
      first_offset_le := hfirst
      offsets := hoffsets
      first_line_le := hsame ▸ hrest.first_line_le
      lines := hsame ▸ hrest.lines
      canonical := hcanonical }
  | false =>
    have hcons : startLines (point :: points) = point.startLine :: startLines points := by
      simp [startLines, hhidden]
    have hstart : startAfter start point = some (point.startLine, point.startColumn) :=
      if_neg (by simp [hhidden])
    rw [hstart] at hrest
    refine {
      first_offset_le := hfirst
      offsets := hoffsets
      first_line_le := ?_
      lines := ?_
      canonical := hcanonical }
    · rw [hcons]
      rintro hnone _ ⟨⟩
      exact hfollows.first_line_le hhidden hnone
    · rw [hcons]
      cases start with
      | none => exact hrest.lines
      | some last => exact hrest.lines.cons_cons (hfollows.line_reaches hhidden last rfl)

/-- The cursor of a reader after some points, with the document that it is in. -/
def cursorIn (document : UInt32) (offset : Option UInt32) (start : Option Start) : Cursor :=
  { cursorAfter offset start with document }

/-- Positions in range are those of the point. -/
theorem point?_eq_some {offset document : UInt32} {startLine startColumn columns : Int}
    {lines : Nat} {point : SequencePoint}
    (hpoint : point? offset document startLine startColumn lines columns = some point) :
    point.offset = offset ∧ point.isHidden = false ∧
      (point.startLine.toNat : Int) = startLine ∧ (point.startColumn.toNat : Int) = startColumn ∧
      (point.endLine.toNat : Int) = startLine + lines ∧
      (point.endColumn.toNat : Int) = startColumn + columns := by
  simp only [point?, Option.ite_none_right_eq_some, Bool.and_eq_true, decide_eq_true_eq] at hpoint
  obtain ⟨hrange, hpoint⟩ := hpoint
  cases hpoint
  have hline (line : Int) (hlow : 0 ≤ line) (hhigh : line < 0x100000000) :
      (line.toNat.toUInt32.toNat : Int) = line := by
    rw [Nat.toUInt32_eq, UInt32.toNat_ofNat_of_lt' (by simp [UInt32.size]; omega)]
    omega
  have hcolumn (column : Int) (hlow : 0 ≤ column) (hhigh : column < 0x10000) :
      (column.toNat.toUInt16.toNat : Int) = column := by
    rw [Nat.toUInt16_eq, UInt16.toNat_ofNat_of_lt' (by simp [UInt16.size]; omega)]
    omega
  exact ⟨rfl, rfl, hline _ (by omega) (by omega), hcolumn _ (by omega) (by omega),
    hline _ (by omega) (by omega), hcolumn _ (by omega) (by omega)⟩

theorem ensures_readColumns (lines : Nat) :
    (readColumns lines).Ensures fun columns => lines = 0 → 0 ≤ columns := by
  unfold readColumns
  split
  · exact ensures_readUInt.map fun columns _ _ => Int.natCast_nonneg columns
  · next hlines => exact fun _ _ _ _ _ hzero => absurd hzero hlines

theorem ensures_readStart (document : UInt32) (offset : Option UInt32) (start : Option Start) :
    (readStart (cursorIn document offset start).start).Ensures fun (line, _) =>
      (start = none → line ≤ maxUInt) ∧
      ∀ last ∈ start, -0x10000000 ≤ line - last.1.toNat ∧ line - last.1.toNat < 0x10000000 := by
  cases start with
  | none =>
    refine ensures_readUInt.bind fun line hline => (ensures_true _).bind fun column _ =>
      ensures_pure ?_
    exact ⟨fun _ => Int.ofNat_le.mpr hline, nofun⟩
  | some last =>
    refine ensures_readInt.bind fun line hline => (ensures_true _).bind fun column _ =>
      ensures_pure ?_
    refine ⟨nofun, ?_⟩
    rintro _ ⟨⟩
    omega

/-- A range that is not the mark of a hidden point covers some text. -/
theorem isWritable_of_extent {point : SequencePoint} {lines : Nat} {columns : Int}
    (hlines : lines ≤ maxUInt) (hcolumns : lines = 0 → 0 ≤ columns)
    (hmark : ¬ (lines = 0 ∧ columns = 0))
    (hendLine : (point.endLine.toNat : Int) = point.startLine.toNat + lines)
    (hendColumn : (point.endColumn.toNat : Int) = point.startColumn.toNat + columns) :
    IsWritable point := by
  intro _
  refine ⟨?_, by omega⟩
  by_cases hzero : lines = 0
  · refine .inr ⟨UInt32.toNat_inj.mp (by omega), UInt16.lt_iff_toNat_lt.mpr ?_⟩
    have hcolumns := hcolumns hzero
    omega
  · exact .inl (UInt32.lt_iff_toNat_lt.mpr (by omega))

/-- What a reader gives for a point follows the points before it, and leaves the reader behind
it. -/
def IsNext (offset : Option UInt32) (start : Option Start) (point : SequencePoint)
    (after : Cursor) : Prop :=
  Follows offset start point ∧
    ∃ document, after = cursorIn document (some point.offset) (startAfter start point)

theorem ensures_readRange {document : UInt32} {offset : Option UInt32} {start : Option Start}
    {next : UInt32} (hfirst : offset = none → next.toNat ≤ maxUInt)
    (hreaches : ∀ last ∈ offset, OffsetReaches last next) :
    (readRange (cursorIn document offset start) next).Ensures fun (point, after) =>
      IsNext offset start point after := by
  refine ensures_readUInt.bind fun lines hlines =>
    (ensures_readColumns lines).bind fun columns hcolumns => ?_
  split
  · refine ensures_pure ⟨?_, document, rfl⟩
    exact {
      first_offset_le := hfirst
      reaches := hreaches
      first_line_le := nofun
      line_reaches := nofun
      canonical := ⟨fun _ => ⟨rfl, rfl, rfl, rfl⟩, nofun⟩ }
  · next hmark =>
    refine (ensures_readStart document offset start).bind fun (line, column) hstart => ?_
    refine ensures_lift fun result hresult => ?_
    unfold place at hresult
    split at hresult
    · next point hpoint =>
      cases hresult
      obtain ⟨rfl, hvisible, rfl, rfl, hendLine, hendColumn⟩ := point?_eq_some hpoint
      have hafter : startAfter start point = some (point.startLine, point.startColumn) :=
        if_neg (by simp [hvisible])
      refine ⟨?_, document, by rw [hafter]; rfl⟩
      exact {
        first_offset_le := hfirst
        reaches := hreaches
        first_line_le := fun _ hnone => Int.ofNat_le.mp (hstart.1 hnone)
        line_reaches := fun _ => hstart.2
        canonical := {
          hidden := fun hhidden => absurd hhidden (by simp [hvisible])
          writable := isWritable_of_extent hlines hcolumns (by simpa using hmark) hendLine
            hendColumn } }
    · cases hresult

theorem ensures_readPoint (document : UInt32) (offset : Option UInt32) (start : Option Start) :
    (readPoint (cursorIn document offset start)).Ensures fun (point?, after) =>
      (point? = none ∧ ∃ document, after = cursorIn document offset start) ∨
      ∃ point, point? = some point ∧ IsNext offset start point after := by
  refine ensures_readUInt.bind fun delta hdelta => ?_
  split
  · refine ensures_readUInt.bind fun document _ => ensures_pure (.inl ⟨rfl, _, rfl⟩)
  · next hmoves =>
    dsimp only
    split
    · exact (ensures_throw _ : Ensures _ fun _ => False).bind nofun
    · next hfits =>
      have hnext : ((cursorIn document offset start).offset.toNat + delta).toUInt32.toNat =
          (offset.getD 0).toNat + delta :=
        UInt32.toNat_ofNat_of_lt' (by simp [UInt32.size]; omega)
      refine (ensures_readRange ?_ ?_).bind fun (point, after) hnext =>
        ensures_pure (.inr ⟨point, rfl, hnext⟩)
      · rintro rfl
        rw [hnext]
        simpa using hdelta
      · rintro last ⟨⟩
        have hpos : delta ≠ 0 := fun hzero => hmoves (by simp [hzero, cursorIn, cursorAfter])
        rw [Option.getD_some] at hnext
        exact ⟨UInt32.lt_iff_toNat_lt.mpr (by omega), by omega⟩

/-- Whatever the bytes, the points that are collected follow each other. -/
theorem ensures_collect_readPoint :
    (collect readPoint {}).Ensures (Continue none none) := by
  have hcollect : (collect readPoint {}).Ensures fun points => ∀ document offset start,
      ({} : Cursor) = cursorIn document offset start → Continue offset start points := by
    refine ensures_collect (motive := fun cursor points => ∀ document offset start,
      cursor = cursorIn document offset start → Continue offset start points)
      (fun _ _ offset start _ => continue_nil offset start) ?_ {}
    rintro _ data position ⟨point?, after⟩ stop hrun points hpoints document offset start rfl
    obtain ⟨rfl, document, rfl⟩ | ⟨point, rfl, hfollows, document, rfl⟩ :=
      ensures_readPoint document offset start data position _ stop hrun
    · exact hpoints document offset start rfl
    · exact hfollows.cons (hpoints document _ _ rfl)
  intro data position points stop hrun
  exact hcollect data position points stop hrun 0 none none rfl

theorem ensures_read (hasInitialDocument : Bool) :
    (read hasInitialDocument).Ensures fun decoded =>
      decoded.localSignature.toNat ≤ maxUInt ∧ Continue none none decoded.points := by
  refine (ensures_true _).bind fun hasMore _ => ?_
  split
  · refine ensures_readUInt.bind fun localSignature hle => ?_
    have hsignature : localSignature.toUInt32.toNat = localSignature := by
      unfold maxUInt at hle
      exact UInt32.toNat_ofNat_of_lt' (by simp [UInt32.size]; omega)
    have hpoints (initialDocument : Option UInt32) : (do
        let points ← collect readPoint {}
        return { localSignature := localSignature.toUInt32, initialDocument, points } :
          Reader SequencePoints).Ensures fun decoded =>
            decoded.localSignature.toNat ≤ maxUInt ∧ Continue none none decoded.points :=
      ensures_collect_readPoint.bind fun points hpoints =>
        ensures_pure ⟨hsignature.symm ▸ hle, hpoints⟩
    dsimp only
    split
    · exact (ensures_true _).bind fun document _ => hpoints (some document.toUInt32)
    · exact hpoints none
  · exact ensures_pure ⟨Nat.zero_le _, continue_nil none none⟩

/-- Whatever the bytes of a blob are, the points that it holds have a blob of their own. -/
theorem isEncodable_of_decode {blob : Bytes} {hasInitialDocument : Bool} {decoded : SequencePoints}
    (hdecode : decode blob hasInitialDocument = .ok decoded) :
    IsEncodable decoded.localSignature decoded.points ∧
      ∀ point ∈ decoded.points, IsCanonical point := by
  obtain ⟨hsignature, hpoints⟩ := (ensures_read hasInitialDocument).eval hdecode
  refine ⟨?_, hpoints.canonical⟩
  exact {
    signature_le := hsignature
    first_offset_le := hpoints.first_offset_le rfl
    offsets := hpoints.offsets
    first_line_le := hpoints.first_line_le rfl
    lines := hpoints.lines
    writable := fun point hpoint => (hpoints.canonical point hpoint).writable }

/-- A point as it is read is kept as it is, except for its document. -/
theorem IsCanonical.stored_eq {point : SequencePoint} (hpoint : IsCanonical point)
    (hdocument : point.document = 0) : point.stored = point := by
  unfold SequencePoint.stored
  obtain ⟨offset, isHidden, startLine, startColumn, endLine, endColumn, document⟩ := point
  cases hdocument
  cases isHidden with
  | true =>
    obtain ⟨rfl, rfl, rfl, rfl⟩ := hpoint.hidden rfl
    rfl
  | false => rfl

/-- Whatever the bytes of a blob are, its points are in the order of their offsets, the hidden ones
have no positions and the visible ones cover some text. If they have no documents of their own, then
they can be written again, and are read from that blob as they are. -/
theorem decode_canonical {blob : Bytes} {hasInitialDocument : Bool} {decoded : SequencePoints}
    (hdecode : decode blob hasInitialDocument = .ok decoded) :
    (decoded.points.map (·.offset)).Pairwise (· < ·) ∧
    (∀ point ∈ decoded.points, point.isHidden = true → point.startLine = 0 ∧
      point.startColumn = 0 ∧ point.endLine = 0 ∧ point.endColumn = 0) ∧
    (∀ point ∈ decoded.points, point.isHidden = false → point.IsNonempty) ∧
    (decoded.points ≠ [] → (∀ point ∈ decoded.points, point.document = 0) →
      ∃ again, encode decoded.localSignature decoded.points = .ok (some again) ∧
        decode again false = .ok { decoded with initialDocument := none }) := by
  obtain ⟨hencodable, hcanonical⟩ := isEncodable_of_decode hdecode
  refine ⟨?_, fun point hpoint => (hcanonical point hpoint).hidden,
    fun point hpoint hvisible => ((hcanonical point hpoint).writable hvisible).1, ?_⟩
  · rw [← List.isChain_iff_pairwise]
    exact hencodable.offsets.imp fun _ _ hreaches => hreaches.1
  · intro hne hdocuments
    obtain ⟨again, hagain⟩ := exists_encode hne hencodable
    have hstored : decoded.points.map (·.stored) = decoded.points :=
      (List.map_congr_left fun point hpoint =>
        (hcanonical point hpoint).stored_eq (hdocuments point hpoint)).trans (List.map_id' _)
    refine ⟨again, hagain, ?_⟩
    rw [decode_of_encode hagain, hstored]

/-- A blob of two points that is longer than it has to be: the first offset takes two bytes, and the
document is told again. -/
def wideBlob : Bytes :=
  #[0, 0x80, 5, 0, 2, 10, 4, 0, 0, 3, 0, 0]

/-- The points of that blob. -/
def widePoints : SequencePoints where
  points := [{ offset := 5, startLine := 10, startColumn := 4, endLine := 10, endColumn := 6 },
    .hidden 8]

theorem decode_canonical_wideBlob :
    decode wideBlob false = .ok widePoints ∧ widePoints.points ≠ [] ∧
      (∀ point ∈ widePoints.points, point.document = 0) ∧
      ∃ again, encode 0 widePoints.points = .ok (some again) ∧
        decode again false = .ok widePoints := by
  have hdecode : decode wideBlob false = .ok widePoints := by decide +kernel
  have hne : widePoints.points ≠ [] := by decide
  have hdocuments : ∀ point ∈ widePoints.points, point.document = 0 := by decide
  obtain ⟨_, _, _, hagain⟩ := decode_canonical hdecode
  exact ⟨hdecode, hne, hdocuments, hagain hne hdocuments⟩

end SequencePoints

end PortablePdb
