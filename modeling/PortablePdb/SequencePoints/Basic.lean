namespace PortablePdb

/-- A point in the code of a method. A visible point has a source range; a hidden one marks code
without source, and its positions mean nothing. -/
structure SequencePoint where
  offset : UInt32
  isHidden : Bool := false
  startLine : UInt32 := 0
  startColumn : UInt16 := 0
  endLine : UInt32 := 0
  endColumn : UInt16 := 0
  document : UInt32 := 0
  deriving DecidableEq, Repr, Inhabited

namespace SequencePoint

/-- A hidden point. -/
def hidden (offset : UInt32) : SequencePoint :=
  { offset, isHidden := true }

/-- A range that ends where it starts, or before, covers no text. -/
def IsNonempty (point : SequencePoint) : Prop :=
  point.startLine < point.endLine ∨
    point.startLine = point.endLine ∧ point.startColumn < point.endColumn

instance (point : SequencePoint) : Decidable point.IsNonempty :=
  inferInstanceAs (Decidable (_ ∨ _))

end SequencePoint

/-- The points of a method, with the row of its local signature. -/
structure SequencePoints where
  localSignature : UInt32 := 0
  /-- The document of the first points, where the blob itself tells it. -/
  initialDocument : Option UInt32 := none
  points : List SequencePoint := []
  deriving DecidableEq, Repr, Inhabited

namespace SequencePoints

/-- The first point at an offset. -/
def atOffset? (points : SequencePoints) (offset : UInt32) : Option SequencePoint :=
  points.points.find? (·.offset == offset)

/-- The number of points that have a source range. -/
def visibleCount (points : SequencePoints) : Nat :=
  points.points.countP fun point => !point.isHidden

end SequencePoints

end PortablePdb
