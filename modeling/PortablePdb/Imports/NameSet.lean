namespace PortablePdb

/-- A set of names. -/
structure NameSet where
  toList : List String
  ascending : toList.Pairwise (· < ·)
  deriving DecidableEq

namespace NameSet

/-- The set without names. -/
def empty : NameSet :=
  ⟨[], .nil⟩

instance : Inhabited NameSet := ⟨empty⟩

/-- Whether a set has no names. -/
def isEmpty (names : NameSet) : Bool :=
  names.toList.isEmpty

/-- Puts a name at its place in an ascending list, unless the list has it. -/
def insertInto (name : String) : List String → List String
  | [] => [name]
  | first :: rest =>
    if name < first then name :: first :: rest
    else if first < name then first :: insertInto name rest
    else first :: rest

theorem mem_insertInto {name other : String} {names : List String} :
    other ∈ insertInto name names ↔ other = name ∨ other ∈ names := by
  induction names with
  | nil => simp [insertInto]
  | cons first rest ih =>
    simp only [insertInto]
    split
    · simp
    · split
      · simp only [List.mem_cons, ih]
        exact or_left_comm
      · next hge hle =>
        have heq : name = first := String.le_antisymm (String.not_lt.mp hle) (String.not_lt.mp hge)
        simp [heq]

theorem pairwise_insertInto {name : String} {names : List String}
    (hnames : names.Pairwise (· < ·)) : (insertInto name names).Pairwise (· < ·) := by
  induction names with
  | nil => simp [insertInto]
  | cons first rest ih =>
    obtain ⟨hfirst, hrest⟩ := List.pairwise_cons.mp hnames
    simp only [insertInto]
    split
    · next hlt =>
      refine List.pairwise_cons.mpr ⟨fun other hmem => ?_, hnames⟩
      rcases List.mem_cons.mp hmem with rfl | hmem
      · exact hlt
      · exact String.lt_trans hlt (hfirst other hmem)
    · split
      · next hlt =>
        refine List.pairwise_cons.mpr ⟨fun other hmem => ?_, ih hrest⟩
        rcases mem_insertInto.mp hmem with rfl | hmem
        · exact hlt
        · exact hfirst other hmem
      · exact hnames

/-- Adds a name. -/
def insert (names : NameSet) (name : String) : NameSet :=
  ⟨insertInto name names.toList, pairwise_insertInto names.ascending⟩

@[simp] theorem mem_insert {names : NameSet} {name other : String} :
    other ∈ (names.insert name).toList ↔ other = name ∨ other ∈ names.toList :=
  mem_insertInto

/-- The set of the names in a list. -/
def ofList (names : List String) : NameSet :=
  names.foldl insert empty

end NameSet

end PortablePdb
