import PortablePdb.Generation.FileRecords
import PortablePdb.Proofs.Related

namespace PortablePdb

namespace Banner

/-- A line of the header, without the line feed at its end. -/
def commentText (line : List Char) : List Char :=
  ['/', '/', ' '] ++ (line.reverse.dropWhile (· == '\r')).reverse

/-- The lines of the header of a banner. -/
def comments (banner : String) : List (List Char) :=
  (lines banner).map commentText

theorem toList_header (banner : String) :
    (header banner).toList = (comments banner).flatMap (· ++ ['\n']) := by
  rw [header, String.toList_ofList, comments, List.flatMap_map]
  rfl

theorem lineFeed_notMem {banner : String} {comment : List Char}
    (hcomment : comment ∈ comments banner) : '\n' ∉ comment := by
  obtain ⟨line, hline, rfl⟩ := List.mem_map.mp hcomment
  rw [commentText, List.mem_append, not_or, List.mem_reverse]
  refine ⟨by decide, fun hmem => Text.notMem_of_mem_split hline ?_⟩
  exact List.mem_reverse.mp ((List.dropWhile_sublist _).subset hmem)

theorem count_header (banner : String) :
    (header banner).toList.count '\n' = (comments banner).length := by
  have hones : (comments banner).map (List.count '\n' ∘ (· ++ ['\n'])) =
      (comments banner).map fun _ => 1 := by
    refine List.map_congr_left fun comment hcomment => ?_
    rw [Function.comp_apply, List.count_append,
      List.count_eq_zero_of_not_mem (lineFeed_notMem hcomment)]
    rfl
  rw [toList_header, List.count_flatMap, hones, List.map_const', List.sum_replicate_nat,
    Nat.mul_one]

theorem toNat_lineCount (banner : String) :
    (lineCount banner).toNat = min (comments banner).length 0xFFFFFFFF := by
  rw [lineCount, comments, List.length_map, Nat.toUInt32_eq]
  exact UInt32.toNat_ofNat_of_lt' (Nat.lt_of_le_of_lt (Nat.min_le_right _ _) (by decide))

/-- The lines of a source text follow those of the header. -/
theorem split_header_append (banner source : String) :
    Text.split '\n' (header banner ++ source).toList =
      comments banner ++ Text.split '\n' source.toList := by
  rw [String.toList_append, toList_header]
  exact Text.split_flatMap_append (fun _ => lineFeed_notMem) _

theorem length_comments_le (banner : String) :
    (comments banner).length ≤ (header banner).utf8ByteSize := by
  rw [← String.ofList_toList (s := header banner), toList_header]
  induction comments banner with
  | nil => exact Nat.zero_le _
  | cons comment comments ih =>
    have hfeed : (String.ofList ['\n']).utf8ByteSize = 1 := by decide
    rw [List.flatMap_cons, String.ofList_append, String.ofList_append, String.utf8ByteSize_append,
      String.utf8ByteSize_append, hfeed, List.length_cons]
    omega

/-- The lines are counted exactly for all texts that can be embedded. -/
theorem lineCount_of_ofText {banner path source : String} {compress : Bytes → Bytes}
    {document : SourceDocument}
    (hdocument : SourceDocument.ofText path (header banner ++ source) compress = .ok document) :
    (lineCount banner).toNat = (comments banner).length := by
  obtain ⟨embedded, hembedded, _⟩ := bind_eq_ok_iff.mp hdocument
  simp only [CustomInfo.encodeSource] at hembedded
  split at hembedded
  · next hsize =>
    rw [Bytes.size_ofText, String.utf8ByteSize_append] at hsize
    have hlength := length_comments_le banner
    rw [toNat_lineCount]
    omega
  · cases hembedded

end Banner

namespace SequencePoint

/-- The text between the start and the end of a point. Lines and columns are counted from one, and
the end is the first column behind the text. -/
def span (point : SequencePoint) (text : String) : List Char :=
  let lines := ((Text.split '\n' text.toList).take point.endLine.toNat).drop
    (point.startLine.toNat - 1)
  let ended := lines.modify (point.endLine.toNat - point.startLine.toNat)
    (·.take (point.endColumn.toNat - 1))
  Text.join '\n' (ended.modify 0 (·.drop (point.startColumn.toNat - 1)))

theorem toNat_shiftLine {line shift : UInt32} (hline : line.toNat + shift.toNat < 0x100000000) :
    (shiftLine line shift).toNat = line.toNat + shift.toNat := by
  rw [shiftLine, Nat.min_eq_left (Nat.le_of_lt_succ hline), Nat.toUInt32_eq,
    UInt32.toNat_ofNat_of_lt' hline]

theorem startLine_le {point : SequencePoint} (hne : point.IsNonempty) :
    point.startLine.toNat ≤ point.endLine.toNat := by
  rcases hne with hlt | ⟨heq, _⟩
  · exact Nat.le_of_lt (UInt32.lt_iff_toNat_lt.mp hlt)
  · exact Nat.le_of_eq (congrArg UInt32.toNat heq)

/-- A visible point that has moved down by the lines of a banner is about the text that it was about
before, as long as its lines fit a word. -/
theorem span_prepare {banner : String} {point : SequencePoint} (hvisible : ¬ point.isHidden)
    (hne : point.IsNonempty) (hstart : 1 ≤ point.startLine)
    (hend : point.endLine.toNat + (Banner.lineCount banner).toNat < 0x100000000)
    (source : String) :
    (point.prepare (Banner.lineCount banner)).span (Banner.header banner ++ source) =
      point.span source := by
  have hle := startLine_le hne
  have hpos : 1 ≤ point.startLine.toNat := UInt32.le_iff_toNat_le.mp hstart
  have hcount := Banner.toNat_lineCount banner
  generalize hshift : Banner.lineCount banner = shift at *
  have hexact : shift.toNat = (Banner.comments banner).length := by omega
  have hlines (lines : List (List Char)) :
      ((Banner.comments banner ++ lines).take (point.endLine.toNat + shift.toNat)).drop
        (point.startLine.toNat + shift.toNat - 1) =
      (lines.take point.endLine.toNat).drop (point.startLine.toNat - 1) := by
    have hfirst : point.startLine.toNat + shift.toNat - 1 =
        (Banner.comments banner).length + (point.startLine.toNat - 1) := by omega
    rw [hfirst, hexact, Nat.add_comm point.endLine.toNat, List.take_length_add_append,
      List.drop_length_add_append]
  rw [prepare, if_neg hvisible, if_pos hne]
  simp only [span]
  rw [Banner.split_header_append, toNat_shiftLine hend, toNat_shiftLine (by omega), hlines,
    Nat.add_sub_add_right]

/-- The points without a text are the visible ones that are made hidden. -/
theorem isDegenerate_eq (shift : UInt32) (point : SequencePoint) :
    point.isDegenerate = (!point.isHidden && (point.prepare shift).isHidden) := by
  cases hhidden : point.isHidden with
  | true => simp [isDegenerate, hhidden]
  | false =>
    by_cases hne : point.IsNonempty
    · simp [isDegenerate, prepare, hhidden, hne]
    · simp [isDegenerate, prepare, hidden, hhidden, hne]

end SequencePoint

namespace Banner

/-- What becomes of a point of a text when a banner comes in front of it. A hidden point stays as it
is, and one without a text is made hidden at its offset. Any other point moves down and keeps its
text, as long as its lines fit a word. -/
structure Keeps (banner source : String) (before after : SequencePoint) : Prop where
  offset : after.offset = before.offset
  hidden : before.isHidden → after = before
  empty : ¬ before.isHidden → ¬ before.IsNonempty → after = .hidden before.offset
  visible : ¬ before.isHidden → before.IsNonempty → 1 ≤ before.startLine →
    before.endLine.toNat + (lineCount banner).toNat < 0x100000000 →
    ¬ after.isHidden ∧
      after.startLine.toNat = before.startLine.toNat + (lineCount banner).toNat ∧
      after.endLine.toNat = before.endLine.toNat + (lineCount banner).toNat ∧
      after.span (header banner ++ source) = before.span source

theorem keeps_prepare (banner source : String) (point : SequencePoint) :
    Keeps banner source point (point.prepare (lineCount banner)) where
  offset := by
    unfold SequencePoint.prepare
    split
    · rfl
    · split <;> rfl
  hidden hhidden := by rw [SequencePoint.prepare, if_pos hhidden]
  empty hvisible hempty := by rw [SequencePoint.prepare, if_neg hvisible, if_neg hempty]
  visible hvisible hne hstart hend := by
    have hle := SequencePoint.startLine_le hne
    have hspan := SequencePoint.span_prepare hvisible hne hstart hend source
    rw [SequencePoint.prepare, if_neg hvisible, if_pos hne] at hspan ⊢
    exact ⟨hvisible, SequencePoint.toNat_shiftLine (by omega), SequencePoint.toNat_shiftLine hend,
      hspan⟩

/-- A banner never moves points to another text. Its header is one comment after the other, each
with a line feed behind it, and these are as many as the banner counts: up to the last number of a
word, and exactly if the text with the banner can be embedded. The lines of the source text come
behind them, and the points are kept in their order; the ones that are made hidden are counted. -/
theorem header_keeps_points (banner : String) :
    ∃ comments : List (List Char),
      (header banner).toList = comments.flatMap (· ++ ['\n']) ∧
      (∀ comment ∈ comments, ['/', '/', ' '] <+: comment ∧ '\n' ∉ comment) ∧
      (lineCount banner).toNat = min comments.length 0xFFFFFFFF ∧
      ∀ source : String,
        Text.split '\n' (header banner ++ source).toList =
          comments ++ Text.split '\n' source.toList ∧
        (∀ path compress document,
          SourceDocument.ofText path (header banner ++ source) compress = .ok document →
            (lineCount banner).toNat = comments.length) ∧
        ∀ points : List SequencePoint,
          List.Forall₂ (Keeps banner source) points (points.map (·.prepare (lineCount banner))) ∧
          points.countP (·.isDegenerate) =
            (points.zip (points.map (·.prepare (lineCount banner)))).countP
              fun (before, after) => !before.isHidden && after.isHidden := by
  refine ⟨comments banner, toList_header banner, fun comment hcomment => ?_,
    toNat_lineCount banner, fun source => ⟨split_header_append banner source,
      fun _ _ _ hdocument => lineCount_of_ofText hdocument, fun points => ⟨?_, ?_⟩⟩⟩
  · obtain ⟨line, _, rfl⟩ := List.mem_map.mp hcomment
    exact ⟨List.prefix_append _ _, lineFeed_notMem hcomment⟩
  · rw [List.forall₂_map_right_iff, List.forall₂_same]
    exact fun point _ => keeps_prepare banner source point
  · rw [← List.map_prod_left_eq_zip, List.countP_map]
    refine List.countP_congr fun point _ => ?_
    rw [SequencePoint.isDegenerate_eq (lineCount banner)]
    exact Iff.rfl

/-- A banner of three lines, of which the last one is empty, and a point about a word in the second
line of a text. -/
example :
    let point : SequencePoint :=
      { offset := 0, startLine := 2, startColumn := 1, endLine := 2, endColumn := 6 }
    let banner := "App\r\nby hand\n"
    (point.prepare (lineCount banner)).startLine = 5 ∧
      (point.prepare (lineCount banner)).span (header banner ++ "using A;\nclass C;\n") =
        ['c', 'l', 'a', 's', 's'] := by
  decide

/-- A banner of empty lines. -/
def lineFeeds (count : Nat) : String :=
  String.ofList (List.replicate count '\n')

theorem length_comments_lineFeeds (count : Nat) :
    (comments (lineFeeds count)).length = count + 1 := by
  rw [comments, List.length_map, lines, lineFeeds, String.toList_ofList, Text.length_split,
    List.count_replicate_self]

/-- A banner with more lines than a word can tell is counted short. A hidden point is not counted as
one that has lost its text, as it had none. -/
theorem lineCount_falls_short :
    (header (lineFeeds 0xFFFFFFFF)).toList.count '\n' = 0x100000000 ∧
      (lineCount (lineFeeds 0xFFFFFFFF)).toNat = 0xFFFFFFFF ∧
      ¬ (SequencePoint.hidden 0).IsNonempty ∧
      [SequencePoint.hidden 0].countP (·.isDegenerate) = 0 := by
  refine ⟨?_, ?_, by decide, by decide⟩
  · rw [count_header, length_comments_lineFeeds]
  · rw [toNat_lineCount, length_comments_lineFeeds]
    rfl

end Banner

end PortablePdb
