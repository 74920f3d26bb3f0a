import PortablePdb.SequencePoints.Basic

namespace PortablePdb

/-- The points of functions. -/
structure PointMap where
  entries : List (UInt32 × List SequencePoint)
  ascending : entries.Pairwise (·.1 < ·.1)

namespace PointMap

/-- No points at all. -/
def empty : PointMap :=
  ⟨[], .nil⟩

instance : Inhabited PointMap := ⟨empty⟩

/-- The points of a function, if it has an entry. -/
def get? (map : PointMap) (function : UInt32) : Option (List SequencePoint) :=
  (map.entries.find? (·.1 == function)).map (·.2)

/-- Replaces the entry of a function in a list, or puts it at its place. -/
def insertEntry (function : UInt32) (points : List SequencePoint) :
    List (UInt32 × List SequencePoint) → List (UInt32 × List SequencePoint)
  | [] => [(function, points)]
  | entry :: entries =>
    if function < entry.1 then (function, points) :: entry :: entries
    else if function = entry.1 then (function, points) :: entries
    else entry :: insertEntry function points entries

theorem mem_insertEntry {function : UInt32} {points : List SequencePoint}
    {entries : List (UInt32 × List SequencePoint)} {entry : UInt32 × List SequencePoint}
    (hmem : entry ∈ insertEntry function points entries) :
    entry = (function, points) ∨ entry ∈ entries := by
  induction entries with
  | nil => simpa [insertEntry] using hmem
  | cons first rest ih =>
    simp only [insertEntry] at hmem
    split at hmem
    · simpa using hmem
    · split at hmem
      · simp only [List.mem_cons] at hmem ⊢
        rcases hmem with h | h
        · exact .inl h
        · exact .inr (.inr h)
      · simp only [List.mem_cons] at hmem ⊢
        rcases hmem with h | h
        · exact .inr (.inl h)
        · rcases ih h with h | h
          · exact .inl h
          · exact .inr (.inr h)

theorem pairwise_insertEntry {function : UInt32} {points : List SequencePoint}
    {entries : List (UInt32 × List SequencePoint)} (hentries : entries.Pairwise (·.1 < ·.1)) :
    (insertEntry function points entries).Pairwise (·.1 < ·.1) := by
  induction entries with
  | nil => simp [insertEntry]
  | cons first rest ih =>
    obtain ⟨hfirst, hrest⟩ := List.pairwise_cons.mp hentries
    simp only [insertEntry]
    split
    · next hlt =>
      refine List.pairwise_cons.mpr ⟨fun entry hmem => ?_, hentries⟩
      rcases List.mem_cons.mp hmem with rfl | hmem
      · exact hlt
      · exact UInt32.lt_trans hlt (hfirst entry hmem)
    · split
      · next heq =>
        refine List.pairwise_cons.mpr ⟨fun entry hmem => ?_, hrest⟩
        simpa [heq] using hfirst entry hmem
      · next hlt hne =>
        refine List.pairwise_cons.mpr ⟨fun entry hmem => ?_, ih hrest⟩
        rcases mem_insertEntry hmem with rfl | hmem
        · have hle : first.1 ≤ function := UInt32.not_lt.mp hlt
          exact UInt32.lt_of_le_of_ne hle (Ne.symm hne)
        · exact hfirst entry hmem

/-- Replaces the points of a function. -/
def insert (map : PointMap) (function : UInt32) (points : List SequencePoint) : PointMap :=
  ⟨insertEntry function points map.entries, pairwise_insertEntry map.ascending⟩

/-- The points in a list; the last entry of a function counts. -/
def ofList (entries : List (UInt32 × List SequencePoint)) : PointMap :=
  entries.foldl (fun map (function, points) => map.insert function points) empty

end PointMap

end PortablePdb
