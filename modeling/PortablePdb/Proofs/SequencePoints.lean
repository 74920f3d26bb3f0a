import Mathlib.Data.List.Chain
import PortablePdb.Proofs.Compressed
import PortablePdb.SequencePoints.Blob

namespace PortablePdb

/-- A point as a blob keeps it: a hidden point has no positions, and no point has a document of its
own. -/
def SequencePoint.stored (point : SequencePoint) : SequencePoint :=
  if point.isHidden then .hidden point.offset else { point with document := 0 }

namespace SequencePoints

open Reader Compressed

/-- The cursor of a reader that has read the points a writer has written. -/
def cursorAfter (offset : Option UInt32) (start : Option Start) : Cursor where
  offset := offset.getD 0
  start := start.map fun (line, column) => (line.toNat, column.toNat)
  hasPoint := offset.isSome

theorem takes_encodeOffset {previous : Option UInt32} {offset : UInt32} {form : Bytes}
    (hform : encodeOffset previous offset = .ok form) :
    ∃ delta, readUInt.Takes form delta ∧ 0 < form.size ∧
      (previous.getD 0).toNat + delta = offset.toNat ∧ (delta = 0 → previous = none) := by
  cases previous with
  | none => exact ⟨_, takes_encodeUInt hform, size_encodeUInt_pos hform, by simp, fun _ => rfl⟩
  | some previous =>
    simp only [encodeOffset] at hform
    split at hform
    · next hlt =>
      have hlt := UInt32.lt_iff_toNat_lt.mp hlt
      refine ⟨_, takes_encodeUInt hform, size_encodeUInt_pos hform, ?_, ?_⟩
      · simp only [Option.getD_some]
        omega
      · omega
    · cases hform

/-- The form of an extent is that of its lines and that of its columns, and it is not the mark of a
hidden point. -/
theorem takes_encodeExtent {point : SequencePoint} {form : Bytes}
    (hform : encodeExtent point = .ok form) :
    ∃ lines lineForm columnForm, form = lineForm ++ columnForm ∧
      readUInt.Takes lineForm lines ∧
      (readColumns lines).Takes columnForm
        ((point.endColumn.toNat : Int) - point.startColumn.toNat) ∧
      point.startLine.toNat + lines = point.endLine.toNat ∧
      ¬ (lines = 0 ∧ (point.endColumn.toNat : Int) - point.startColumn.toNat = 0) := by
  unfold encodeExtent at hform
  split at hform
  · cases hform
  · next hlines =>
    have hle := UInt32.le_iff_toNat_le.mp (UInt32.not_lt.mp hlines)
    obtain ⟨lineForm, hlineForm, hform⟩ := bind_eq_ok_iff.mp hform
    refine ⟨point.endLine.toNat - point.startLine.toNat, lineForm, ?_⟩
    split at hform
    · next hzero =>
      split at hform
      · cases hform
      · next hcolumns =>
        obtain ⟨columnForm, hcolumnForm, hform⟩ := bind_eq_ok_iff.mp hform
        have hread := (takes_encodeUInt hcolumnForm).map (f := Int.ofNat)
        have hnonneg : 0 ≤ (point.endColumn.toNat : Int) - point.startColumn.toNat := by omega
        rw [Int.ofNat_eq_natCast, Int.toNat_of_nonneg hnonneg] at hread
        refine ⟨columnForm, (pure_eq_ok_iff.mp hform).symm, takes_encodeUInt hlineForm, ?_, ?_, ?_⟩
        · rw [readColumns, if_pos hzero]
          exact hread
        · omega
        · omega
    · next hpos =>
      obtain ⟨columnForm, hcolumnForm, hform⟩ := bind_eq_ok_iff.mp hform
      refine ⟨columnForm, (pure_eq_ok_iff.mp hform).symm, takes_encodeUInt hlineForm, ?_, ?_, ?_⟩
      · rw [readColumns, if_neg hpos]
        exact takes_encodeInt hcolumnForm
      · omega
      · omega

theorem lineDelta_eq_ok {current previous : UInt32} {delta : Int}
    (hdelta : lineDelta current previous = .ok delta) :
    delta = (current.toNat : Int) - previous.toNat := by
  simp only [lineDelta] at hdelta
  split at hdelta
  · cases hdelta
    rfl
  · cases hdelta

theorem takes_encodeStart {previous : Option Start} {point : SequencePoint} {form : Bytes}
    (offset : Option UInt32) (hform : encodeStart previous point = .ok form) :
    (readStart (cursorAfter offset previous).start).Takes form
      ((point.startLine.toNat : Int), (point.startColumn.toNat : Int)) := by
  cases previous with
  | none =>
    obtain ⟨lineForm, hline, hform⟩ := bind_eq_ok_iff.mp hform
    obtain ⟨columnForm, hcolumn, hform⟩ := bind_eq_ok_iff.mp hform
    rw [← pure_eq_ok_iff.mp hform]
    exact (takes_encodeUInt hline).bind (takes_encodeUInt hcolumn).bind_pure
  | some start =>
    obtain ⟨line, column⟩ := start
    obtain ⟨delta, hdelta, hform⟩ := bind_eq_ok_iff.mp hform
    obtain ⟨lineForm, hline, hform⟩ := bind_eq_ok_iff.mp hform
    obtain ⟨columnForm, hcolumn, hform⟩ := bind_eq_ok_iff.mp hform
    rw [← pure_eq_ok_iff.mp hform]
    have hread : (readStart (some ((line.toNat : Int), (column.toNat : Int)))).Takes
        (lineForm ++ columnForm) ((line.toNat : Int) + delta,
          (column.toNat : Int) + ((point.startColumn.toNat : Int) - column.toNat)) :=
      (takes_encodeInt hline).bind (takes_encodeInt hcolumn).bind_pure
    have hstart : (line.toNat : Int) + delta = point.startLine.toNat := by
      rw [lineDelta_eq_ok hdelta]
      omega
    have hend : (column.toNat : Int) + ((point.startColumn.toNat : Int) - column.toNat) =
        point.startColumn.toNat := by
      omega
    rwa [hstart, hend] at hread

/-- Positions that came from a point give the point again. -/
theorem point?_of_point (point : SequencePoint) (document : UInt32) {lines : Nat}
    (hlines : point.startLine.toNat + lines = point.endLine.toNat)
    (hvisible : point.isHidden = false) :
    point? point.offset document point.startLine.toNat point.startColumn.toNat lines
      ((point.endColumn.toNat : Int) - point.startColumn.toNat) =
        some { point with document } := by
  have hstartLine := point.startLine.toNat_lt
  have hendLine := point.endLine.toNat_lt
  have hstartColumn := point.startColumn.toNat_lt
  have hendColumn := point.endColumn.toNat_lt
  have hline : (point.startLine.toNat : Int) + lines = point.endLine.toNat := by omega
  have hcolumn : (point.startColumn.toNat : Int) +
      ((point.endColumn.toNat : Int) - point.startColumn.toNat) = point.endColumn.toNat := by
    omega
  unfold point?
  simp only [hline, hcolumn]
  rw [if_pos]
  · simp [← hvisible]
  · simp only [Bool.and_eq_true, decide_eq_true_eq]
    omega

theorem place_eq_ok {cursor : Cursor} {offset : UInt32} {start : Int × Int} {lines : Nat}
    {columns : Int} {point : SequencePoint}
    (hpoint : point? offset cursor.document start.1 start.2 lines columns = some point) :
    place cursor offset start lines columns =
      .ok (point, { cursor with offset, start := some start, hasPoint := true }) := by
  rw [place, hpoint]

theorem takes_readRange_hidden (previous : Option UInt32) (start : Option Start)
    {point : SequencePoint} (hhidden : point.isHidden = true) :
    (readRange (cursorAfter previous start) point.offset).Takes #[0, 0]
      (point.stored, cursorAfter (some point.offset) start) := by
  have hzero : readUInt.Takes #[0] 0 := takes_encodeUInt rfl
  have hcolumns : (readColumns 0).Takes #[0] 0 := hzero.map
  have hmark : (#[0, 0] : Bytes) = #[0] ++ (#[0] ++ #[]) := by simp
  rw [hmark]
  refine hzero.bind (hcolumns.bind ?_)
  rw [if_pos (by simp), SequencePoint.stored, if_pos hhidden]
  exact takes_pure _

theorem takes_readRange_visible (previous : Option UInt32) {start : Option Start}
    {point : SequencePoint} {extentForm startForm : Bytes} (hvisible : point.isHidden = false)
    (hextent : encodeExtent point = .ok extentForm)
    (hstart : encodeStart start point = .ok startForm) :
    (readRange (cursorAfter previous start) point.offset).Takes (extentForm ++ startForm)
      (point.stored,
        cursorAfter (some point.offset) (some (point.startLine, point.startColumn))) := by
  obtain ⟨lines, lineForm, columnForm, rfl, hlines, hcolumns, hend, hmark⟩ :=
    takes_encodeExtent hextent
  rw [Array.append_assoc]
  refine hlines.bind (hcolumns.bind ?_)
  rw [if_neg (by simpa using hmark)]
  have hread := takes_encodeStart previous hstart
  have hform : startForm = startForm ++ #[] := Array.append_empty.symm
  rw [hform]
  rw [SequencePoint.stored, if_neg (by simp [hvisible])]
  exact hread.bind (takes_lift (place_eq_ok (point?_of_point point _ hend hvisible)))

/-- A point is read back, and the cursor after it is that of the writer. -/
theorem takes_readPoint {previous : Option UInt32} {start : Option Start} {point : SequencePoint}
    {form rest : Bytes} {next : Cursor} (hform : encodeOffset previous point.offset = .ok form)
    (hrest :
      (readRange (cursorAfter previous start) point.offset).Takes rest (point.stored, next)) :
    (readPoint (cursorAfter previous start)).Takes (form ++ rest) (some point.stored, next) := by
  obtain ⟨delta, hdelta, _, hsum, hzero⟩ := takes_encodeOffset hform
  refine hdelta.bind ?_
  have hmoves : ¬ (decide (delta = 0) && (cursorAfter previous start).hasPoint) = true := by
    intro hstays
    simp only [Bool.and_eq_true, decide_eq_true_eq] at hstays
    rw [hzero hstays.1] at hstays
    exact absurd hstays.2 (by simp [cursorAfter])
  have hoffset : (cursorAfter previous start).offset.toNat + delta = point.offset.toNat := hsum
  have hfits : ¬ 0xFFFFFFFF < point.offset.toNat := by
    have hlt := point.offset.toNat_lt
    omega
  rw [if_neg hmoves]
  simp only [hoffset, if_neg hfits, Nat.toUInt32_eq, UInt32.ofNat_toNat]
  exact hrest.bind_pure

/-- The points of a writer are read back by a reader whose cursor is where the writer is. -/
theorem takes_encodeFrom {offset : Option UInt32} {start : Option Start}
    {points : List SequencePoint} {form : Bytes}
    (hform : encodeFrom offset start points = .ok form) :
    (collect readPoint (cursorAfter offset start)).TakesLast form
      (points.map SequencePoint.stored) := by
  -- Hidden points move the offset of the state but not its start, so the two cases below leave the
  -- cursor in different states.
  induction points generalizing offset start form with
  | nil =>
    cases hform
    exact collect_nil _ _
  | cons point points ih =>
    obtain ⟨offsetForm, hoffset, hform⟩ := bind_eq_ok_iff.mp hform
    obtain ⟨_, _, hpos, _⟩ := takes_encodeOffset hoffset
    split at hform
    · next hhidden =>
      obtain ⟨restForm, hrest, hform⟩ := bind_eq_ok_iff.mp hform
      rw [← pure_eq_ok_iff.mp hform]
      have hpoint := takes_readPoint hoffset (takes_readRange_hidden offset start hhidden)
      exact hpoint.collect_cons (by simp) (ih hrest)
    · next hvisible =>
      obtain ⟨extentForm, hextent, hform⟩ := bind_eq_ok_iff.mp hform
      obtain ⟨startForm, hstart, hform⟩ := bind_eq_ok_iff.mp hform
      obtain ⟨restForm, hrest, hform⟩ := bind_eq_ok_iff.mp hform
      have hassoc : offsetForm ++ extentForm ++ startForm =
          offsetForm ++ (extentForm ++ startForm) :=
        Array.append_assoc
      rw [← pure_eq_ok_iff.mp hform, hassoc]
      have hpoint := takes_readPoint hoffset
        (takes_readRange_visible offset (by simpa using hvisible) hextent hstart)
      exact hpoint.collect_cons (by simp only [Array.size_append]; omega) (ih hrest)

/-- A later offset within the reach of a compressed number. -/
def OffsetReaches (previous offset : UInt32) : Prop :=
  previous < offset ∧ offset.toNat - previous.toNat ≤ maxUInt

instance : DecidableRel OffsetReaches :=
  fun _ _ => inferInstanceAs (Decidable (_ ∧ _))

/-- A line within the reach of a compressed signed number. -/
def LineReaches (previous line : UInt32) : Prop :=
  -0x10000000 ≤ (line.toNat : Int) - previous.toNat ∧
    (line.toNat : Int) - previous.toNat < 0x10000000

instance : DecidableRel LineReaches :=
  fun _ _ => inferInstanceAs (Decidable (_ ∧ _))

/-- The lines on which the visible points start. -/
def startLines (points : List SequencePoint) : List UInt32 :=
  (points.filter (!·.isHidden)).map (·.startLine)

/-- A visible point covers some text, on a number of lines that has a compressed form. -/
def IsWritable (point : SequencePoint) : Prop :=
  point.isHidden = false →
    point.IsNonempty ∧ point.endLine.toNat - point.startLine.toNat ≤ maxUInt

instance (point : SequencePoint) : Decidable (IsWritable point) :=
  inferInstanceAs (Decidable (_ → _))

/-- All numbers that the blob of some points has to hold have compressed forms, offsets ascend, and
no visible point looks like a hidden one. -/
structure IsEncodable (localSignature : UInt32) (points : List SequencePoint) : Prop where
  signature_le : localSignature.toNat ≤ maxUInt
  first_offset_le : ∀ offset ∈ (points.map (·.offset)).head?, offset.toNat ≤ maxUInt
  offsets : (points.map (·.offset)).IsChain OffsetReaches
  first_line_le : ∀ line ∈ (startLines points).head?, line.toNat ≤ maxUInt
  lines : (startLines points).IsChain LineReaches
  writable : ∀ point ∈ points, IsWritable point

theorem exists_encodeOffset {previous : Option UInt32} {offset : UInt32}
    (hfirst : previous = none → offset.toNat ≤ maxUInt)
    (hlater : ∀ last ∈ previous, OffsetReaches last offset) :
    ∃ form, encodeOffset previous offset = .ok form := by
  cases previous with
  | none => exact exists_encodeUInt (hfirst rfl)
  | some previous =>
    obtain ⟨hlt, hle⟩ := hlater previous rfl
    simp only [encodeOffset, if_pos hlt]
    exact exists_encodeUInt hle

theorem fits_columns (first second : UInt16) :
    fits 0x10000000 ((first.toNat : Int) - second.toNat) = true := by
  have hfirst := first.toNat_lt
  have hsecond := second.toNat_lt
  rw [fits_iff]
  omega

theorem exists_encodeExtent {point : SequencePoint} (hpoint : IsWritable point)
    (hvisible : point.isHidden = false) : ∃ form, encodeExtent point = .ok form := by
  obtain ⟨hnonempty, hle⟩ := hpoint hvisible
  have hlines : ¬ point.endLine < point.startLine := by
    rw [UInt32.lt_iff_toNat_lt]
    rcases hnonempty with hlt | ⟨heq, _⟩
    · have hlt := UInt32.lt_iff_toNat_lt.mp hlt
      omega
    · rw [heq]
      omega
  obtain ⟨lineForm, hlineForm⟩ := exists_encodeUInt hle
  unfold encodeExtent
  rw [if_neg hlines]
  simp only [hlineForm]
  by_cases hzero : point.endLine.toNat - point.startLine.toNat = 0
  · have hcolumn : point.startColumn.toNat < point.endColumn.toNat := by
      rcases hnonempty with hlt | ⟨_, hlt⟩
      · have hlt := UInt32.lt_iff_toNat_lt.mp hlt
        omega
      · exact UInt16.lt_iff_toNat_lt.mp hlt
    have hpositive : ¬ (point.endColumn.toNat : Int) - point.startColumn.toNat ≤ 0 := by omega
    have hbound := point.endColumn.toNat_lt
    have hle : ((point.endColumn.toNat : Int) - point.startColumn.toNat).toNat ≤ maxUInt := by
      unfold maxUInt
      omega
    obtain ⟨columnForm, hcolumnForm⟩ := exists_encodeUInt hle
    refine ⟨lineForm ++ columnForm, bind_eq_ok_iff.mpr ⟨lineForm, rfl, ?_⟩⟩
    rw [if_pos hzero, if_neg hpositive]
    exact bind_eq_ok_iff.mpr ⟨columnForm, hcolumnForm, rfl⟩
  · obtain ⟨columnForm, hcolumnForm⟩ :=
      exists_encodeInt (fits_columns point.endColumn point.startColumn)
    refine ⟨lineForm ++ columnForm, bind_eq_ok_iff.mpr ⟨lineForm, rfl, ?_⟩⟩
    rw [if_neg hzero]
    exact bind_eq_ok_iff.mpr ⟨columnForm, hcolumnForm, rfl⟩

theorem exists_encodeStart {previous : Option Start} {point : SequencePoint}
    (hfirst : previous = none → point.startLine.toNat ≤ maxUInt)
    (hlater : ∀ last ∈ previous, LineReaches last.1 point.startLine) :
    ∃ form, encodeStart previous point = .ok form := by
  cases previous with
  | none =>
    have hbound := point.startColumn.toNat_lt
    obtain ⟨lineForm, hlineForm⟩ := exists_encodeUInt (hfirst rfl)
    have hle : point.startColumn.toNat ≤ maxUInt := by
      unfold maxUInt
      omega
    obtain ⟨columnForm, hcolumnForm⟩ := exists_encodeUInt hle
    exact ⟨lineForm ++ columnForm, bind_eq_ok_iff.mpr ⟨lineForm, hlineForm,
      bind_eq_ok_iff.mpr ⟨columnForm, hcolumnForm, rfl⟩⟩⟩
  | some start =>
    obtain ⟨line, column⟩ := start
    obtain ⟨hlow, hhigh⟩ : LineReaches line point.startLine := hlater (line, column) rfl
    have hdelta : lineDelta point.startLine line =
        .ok ((point.startLine.toNat : Int) - line.toNat) := by
      simp only [lineDelta]
      rw [if_pos]
      simp only [Bool.and_eq_true, decide_eq_true_eq]
      omega
    have hfits : fits 0x10000000 ((point.startLine.toNat : Int) - line.toNat) = true :=
      fits_iff.mpr ⟨hlow, hhigh⟩
    obtain ⟨lineForm, hlineForm⟩ := exists_encodeInt hfits
    obtain ⟨columnForm, hcolumnForm⟩ := exists_encodeInt (fits_columns point.startColumn column)
    exact ⟨lineForm ++ columnForm, bind_eq_ok_iff.mpr ⟨_, hdelta, bind_eq_ok_iff.mpr ⟨lineForm,
      hlineForm, bind_eq_ok_iff.mpr ⟨columnForm, hcolumnForm, rfl⟩⟩⟩⟩

/-- Points have a form after others if their first offset and their first line are in reach of those
before. -/
theorem exists_encodeFrom (offset : Option UInt32) (start : Option Start)
    {points : List SequencePoint}
    (hfirst : offset = none → ∀ first ∈ (points.map (·.offset)).head?, first.toNat ≤ maxUInt)
    (hoffsets : (offset.toList ++ points.map (·.offset)).IsChain OffsetReaches)
    (hline : start = none → ∀ first ∈ (startLines points).head?, first.toNat ≤ maxUInt)
    (hlines : ((start.map (·.1)).toList ++ startLines points).IsChain LineReaches)
    (hpoints : ∀ point ∈ points, IsWritable point) :
    ∃ form, encodeFrom offset start points = .ok form := by
  induction points generalizing offset start with
  | nil => exact ⟨#[], rfl⟩
  | cons point points ih =>
    have hpoint := hpoints point List.mem_cons_self
    have hrest := fun other hother => hpoints other (List.mem_cons_of_mem point hother)
    obtain ⟨offsetForm, hoffsetForm⟩ := exists_encodeOffset
      (fun hnone => hfirst hnone point.offset rfl)
      (fun last hlast => by
        cases hlast
        exact (List.isChain_cons_cons.mp hoffsets).1)
    have hoffsets : ((some point.offset).toList ++ points.map (·.offset)).IsChain OffsetReaches :=
      hoffsets.right_of_append
    cases hhidden : point.isHidden with
    | true =>
      have hsame : startLines (point :: points) = startLines points := by simp [startLines, hhidden]
      rw [hsame] at hline hlines
      obtain ⟨form, hform⟩ := ih (some point.offset) _ nofun hoffsets hline hlines hrest
      refine ⟨offsetForm ++ #[0, 0] ++ form, bind_eq_ok_iff.mpr ⟨offsetForm, hoffsetForm, ?_⟩⟩
      rw [if_pos hhidden]
      exact bind_eq_ok_iff.mpr ⟨form, hform, rfl⟩
    | false =>
      have hcons : startLines (point :: points) = point.startLine :: startLines points := by
        simp [startLines, hhidden]
      rw [hcons] at hline hlines
      obtain ⟨extentForm, hextentForm⟩ := exists_encodeExtent hpoint hhidden
      obtain ⟨startForm, hstartForm⟩ := exists_encodeStart
        (fun hnone => hline hnone point.startLine rfl)
        (fun last hlast => by
          cases hlast
          exact (List.isChain_cons_cons.mp hlines).1)
      obtain ⟨form, hform⟩ := ih (some point.offset)
        (some (point.startLine, point.startColumn)) nofun hoffsets nofun
        hlines.right_of_append hrest
      refine ⟨offsetForm ++ extentForm ++ startForm ++ form,
        bind_eq_ok_iff.mpr ⟨offsetForm, hoffsetForm, ?_⟩⟩
      rw [if_neg (by simp [hhidden])]
      exact bind_eq_ok_iff.mpr ⟨extentForm, hextentForm, bind_eq_ok_iff.mpr ⟨startForm, hstartForm,
        bind_eq_ok_iff.mpr ⟨form, hform, rfl⟩⟩⟩

/-- The blob of points starts with the row of the local signature. -/
theorem ne_empty_of_encode {localSignature : UInt32} {points : List SequencePoint} {blob : Bytes}
    (hblob : encode localSignature points = .ok (some blob)) : blob ≠ #[] := by
  unfold encode at hblob
  split at hblob
  · cases hblob
  · obtain ⟨head, hhead, hblob⟩ := bind_eq_ok_iff.mp hblob
    obtain ⟨rest, _, hblob⟩ := bind_eq_ok_iff.mp hblob
    cases hblob
    have hpos := Compressed.size_encodeUInt_pos hhead
    intro hempty
    have hsize := congrArg Array.size hempty
    rw [Array.size_append, Array.size_empty] at hsize
    omega

/-- The blob of a method's points holds the row of its local signature and the points. -/
theorem decode_of_encode {localSignature : UInt32} {points : List SequencePoint} {blob : Bytes}
    (hblob : encode localSignature points = .ok (some blob)) :
    decode blob false =
      .ok { localSignature, initialDocument := none, points := points.map (·.stored) } := by
  unfold encode at hblob
  split at hblob
  · cases hblob
  · obtain ⟨head, hhead, hblob⟩ := bind_eq_ok_iff.mp hblob
    obtain ⟨form, hform, hblob⟩ := bind_eq_ok_iff.mp hblob
    cases hblob
    have hpos := size_encodeUInt_pos hhead
    have hread : (read false).TakesLast (head ++ form)
        { localSignature, initialDocument := none, points := points.map (·.stored) } := by
      refine TakesLast.bind_hasMore ?_ (by rw [Array.size_append]; omega)
      rw [if_pos rfl]
      refine (takes_encodeUInt hhead).bind_last ?_
      simp only [Nat.toUInt32_eq, UInt32.ofNat_toNat, Bool.false_eq_true, if_false, pure_bind]
      exact (takes_encodeFrom hform).bind_pure
    exact hread.eval_eq

theorem exists_encode {localSignature : UInt32} {points : List SequencePoint} (hne : points ≠ [])
    (hpoints : IsEncodable localSignature points) :
    ∃ blob, encode localSignature points = .ok (some blob) := by
  obtain ⟨head, hhead⟩ := exists_encodeUInt hpoints.signature_le
  obtain ⟨form, hform⟩ := exists_encodeFrom none none
    (fun _ => hpoints.first_offset_le) hpoints.offsets (fun _ => hpoints.first_line_le)
    hpoints.lines hpoints.writable
  refine ⟨head ++ form, ?_⟩
  unfold encode
  rw [if_neg (by simpa using hne)]
  exact bind_eq_ok_iff.mpr ⟨head, hhead, bind_eq_ok_iff.mpr ⟨form, hform, rfl⟩⟩

/-- A blob of points is read back as the row of the local signature and all points in order, of
which the hidden ones have lost their positions. Points have a blob if their numbers are in reach
of compressed forms, their offsets ascend and no visible point is empty. -/
theorem encode_roundTrip (localSignature : UInt32) {points : List SequencePoint}
    (hne : points ≠ []) :
    (∀ blob, encode localSignature points = .ok (some blob) →
      decode blob false = .ok
        { localSignature, initialDocument := none, points := points.map (·.stored) }) ∧
    (IsEncodable localSignature points →
      ∃ blob, encode localSignature points = .ok (some blob)) :=
  ⟨fun _ hblob => decode_of_encode hblob, exists_encode hne⟩

/-- A visible point, a hidden one with positions that mean nothing, and a point further up whose
range ends in a column before its first. -/
def mixedPoints : List SequencePoint :=
  [{ offset := 0, startLine := 300, startColumn := 9, endLine := 300, endColumn := 40 },
    { offset := 7, isHidden := true, startLine := 5, endLine := 4, document := 2 },
    { offset := 0x4100, startLine := 20, startColumn := 80, endLine := 25, endColumn := 3 }]

theorem isEncodable_mixedPoints : IsEncodable 0x11000001 mixedPoints where
  signature_le := by decide
  first_offset_le := by
    rintro _ ⟨⟩
    decide
  offsets := by decide
  first_line_le := by
    rintro _ ⟨⟩
    decide
  lines := by decide
  writable := by decide

theorem encode_roundTrip_mixedPoints :
    mixedPoints ≠ [] ∧ ∃ blob, encode 0x11000001 mixedPoints = .ok (some blob) ∧
      decode blob false = .ok
        { localSignature := 0x11000001, initialDocument := none,
          points := mixedPoints.map (·.stored) } := by
  have hne : mixedPoints ≠ [] := by decide
  obtain ⟨hdecode, hencode⟩ := encode_roundTrip 0x11000001 hne
  obtain ⟨blob, hblob⟩ := hencode isEncodable_mixedPoints
  exact ⟨hne, blob, hblob, hdecode blob hblob⟩

end SequencePoints

end PortablePdb
