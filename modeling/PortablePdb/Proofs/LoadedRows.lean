import PortablePdb.Proofs.Checked.Module

namespace PortablePdb

namespace MethodDefRow

open Reader

theorem reads (layout : Layout) (rid : UInt32) :
    (Row.read layout rid : Reader MethodDefRow).Reads (Row.size MethodDefRow layout) := by
  have hcolumns := reads_le32.bind fun rva => reads_le16.bind fun implFlags =>
    reads_le16.bind fun flags => (Index.reads layout.wideStrings).bind fun name =>
      (Index.reads layout.wideBlobs).bind fun signature =>
        (Index.reads (layout.isLarge .param)).map fun paramList =>
          (⟨rid, rva, implFlags, flags, name, signature, paramList⟩ : MethodDefRow)
  simp only [← Nat.add_assoc, ← Layout.rowIndexBytes_eq] at hcolumns
  exact hcolumns

theorem ensures_rid (layout : Layout) (rid : UInt32) :
    (Row.read layout rid : Reader MethodDefRow).Ensures fun row => Row.rid row = rid :=
  (ensures_true _).bind fun _ _ => (ensures_true _).bind fun _ _ => (ensures_true _).bind fun _ _ =>
    (ensures_true _).bind fun _ _ => (ensures_true _).bind fun _ _ =>
      (ensures_true _).bind fun _ _ => ensures_pure rfl

end MethodDefRow

namespace TypeDefRow

open Reader

/-- Where the base type of a type stands, from the start of its row on. -/
def baseOffset (layout : Layout) : Nat :=
  4 + layout.stringIndexBytes + layout.stringIndexBytes

/-- A type can be read if there is a table with the tag of its base type. -/
theorem readsWhere (layout : Layout) (rid : UInt32) :
    (Row.read layout rid : Reader TypeDefRow).ReadsWhere (Row.size TypeDefRow layout)
      fun data position =>
        CodedIndex.tagAt .typeDefOrRef data (position + baseOffset layout) < 3 := by
  have hcolumns := reads_le32.bind_where fun flags =>
    (Index.reads layout.wideStrings).bind_where fun typeName =>
      (Index.reads layout.wideStrings).bind_where fun typeNamespace =>
        (CodedIndex.readsWhere_read layout .typeDefOrRef).bind fun baseType =>
          (Index.reads (layout.isLarge .field)).bind fun fieldList =>
            (Index.reads (layout.isLarge .methodDef)).map fun methodList =>
              (⟨rid, flags, typeName, typeNamespace, baseType, fieldList, methodList⟩ : TypeDefRow)
  simp only [← Nat.add_assoc, ← Layout.rowIndexBytes_eq] at hcolumns
  simp only [baseOffset, ← Nat.add_assoc]
  exact hcolumns

theorem ensures_rid (layout : Layout) (rid : UInt32) :
    (Row.read layout rid : Reader TypeDefRow).Ensures fun row => Row.rid row = rid :=
  (ensures_true _).bind fun _ _ => (ensures_true _).bind fun _ _ => (ensures_true _).bind fun _ _ =>
    (ensures_true _).bind fun _ _ => (ensures_true _).bind fun _ _ =>
      (ensures_true _).bind fun _ _ => ensures_pure rfl

end TypeDefRow

namespace RowTable

variable {ρ : Type} [Row ρ]

theorem rid_addRows (table : RowTable ρ)
    (hread : ∀ rid, (Row.read table.layout rid : Reader ρ).Ensures fun row => Row.rid row = rid)
    {left rid position : Nat} {before : Array ρ} {i : Nat} {row : ρ}
    (hrow : (table.addRows left rid position before)[i]? = some row) :
    before[i]? = some row ∨
      before.size ≤ i ∧ Row.rid row = (rid + (i - before.size)).toUInt32 := by
  induction left generalizing rid position before with
  | zero => exact .inl hrow
  | succ left ih =>
    rw [addRows] at hrow
    split at hrow
    · next first next hfirst =>
      have hrid := hread rid.toUInt32 table.data position first next hfirst
      rcases ih hrow with hpush | ⟨hle, hlater⟩
      · rw [Array.getElem?_push] at hpush
        split at hpush
        · next hlast =>
          cases hpush
          exact .inr ⟨hlast.ge, by rw [hrid, hlast, Nat.sub_self, Nat.add_zero]⟩
        · exact .inl hpush
      · rw [Array.size_push] at hle hlater
        refine .inr ⟨Nat.le_of_succ_le hle, hlater.trans (congrArg Nat.toUInt32 ?_)⟩
        omega
    · exact .inl hrow

end RowTable

namespace TablesStream

variable {stream : TablesStream}

/-- Rows are numbered by their places in the table. -/
theorem rid_rows {ρ : Type} [Row ρ]
    (hread : ∀ rid, (Row.read stream.layout rid : Reader ρ).Ensures fun row => Row.rid row = rid)
    {i : Nat} {row : ρ} (hrow : (stream.rows ρ)[i]? = some row) :
    Row.rid row = (i + 1).toUInt32 := by
  unfold rows at hrow
  cases htable : stream.table? ρ with
  | none =>
    rw [htable] at hrow
    cases hrow
  | some table =>
    have hlayout : table.layout = stream.layout := by
      obtain ⟨location, _, htable⟩ := Option.bind_eq_some_iff.mp htable
      unfold RowTable.ofData at htable
      simp only at htable
      split at htable
      · cases htable
      · cases htable
        rfl
    rw [htable] at hrow
    rcases table.rid_addRows (hlayout ▸ hread) hrow with hnone | ⟨_, hrid⟩
    · cases hnone
    · rw [hrid, Array.size_empty, Nat.sub_zero, Nat.add_comm]

/-- The tag of the base type of a type. -/
def baseTag (stream : TablesStream) (i : Nat) : Nat :=
  CodedIndex.tagAt .typeDefOrRef stream.data
    (stream.rowStart .typeDef i + TypeDefRow.baseOffset stream.layout)

theorem size_typeRows (hbounded : stream.IsBounded) :
    (stream.rows TypeDefRow).size =
      ((List.range (stream.rowCount .typeDef).toNat).takeWhile
        fun i => stream.baseTag i < 3).length := by
  have htable : Row.table TypeDefRow = .typeDef := rfl
  rw [size_rows_of_schema hbounded (TypeDefRow.size_eq_rowSize _)
    (TypeDefRow.readsWhere stream.layout), htable]
  rfl

theorem size_methodRows (hbounded : stream.IsBounded) :
    (stream.rows MethodDefRow).size = (stream.rowCount .methodDef).toNat := by
  have htable : Row.table MethodDefRow = .methodDef := rfl
  rw [size_rows_of_schema hbounded (MethodDefRow.size_eq_rowSize _) fun rid =>
    (MethodDefRow.reads stream.layout rid).readsWhere, htable, length_takeWhile_range_iff]
  exact fun _ _ => rfl

end TablesStream

namespace Module

/-- The types of owners are those of the first rows, each under the token of its row. -/
structure Owners.ListsRows (owners : Owners) (types : Array TypeDefRow) (methodCount count : Nat) :
    Prop where
  size : owners.types.size = count
  size_declaring : owners.declaring.size = methodCount
  token : ∀ (i : Nat) (type : ModuleType), owners.types[i]? = some type →
    ∃ row, types[i]? = some row ∧ type.token = Row.token row

section Owners

variable {strings : StringHeap} {types : Array TypeDefRow} {nesting : Array NestedClassRow}
  {methodCount index : Nat} {owners after : Owners} {row : TypeDefRow}

theorem Owners.ListsRows.add (hlists : owners.ListsRows types methodCount index)
    (hcount : methodCount < 0x100000000) (hrow : types[index]? = some row)
    (hafter : owners.add strings types nesting index row = .ok after) :
    after.ListsRows types methodCount (index + 1) := by
  obtain ⟨added, htypes, htoken, -⟩ := add_eq_ok hafter
  refine ⟨?_, ?_, fun i type htype => ?_⟩
  · rw [htypes, Array.size_push, hlists.size]
  · rw [size_of_add (hlists.size_declaring ▸ hcount) hafter, hlists.size_declaring]
  · rw [htypes, Array.getElem?_push] at htype
    split at htype
    · next hlast =>
      cases htype
      rw [hlast, hlists.size]
      exact ⟨row, hrow, htoken⟩
    · exact hlists.token i type htype

theorem listsRows_ownersOf (hcount : methodCount < 0x100000000)
    (howners : ownersOf strings types nesting methodCount = .ok owners) :
    owners.ListsRows types methodCount types.size :=
  ownersOf_induction (motive := fun index owners => owners.ListsRows types methodCount index)
    ⟨rfl, Array.size_replicate, nofun⟩ (fun hrow hlists hafter => hlists.add hcount hrow hafter)
    howners

end Owners

namespace Parts

variable {parts : Parts} {image : Image} {owners : Owners} {module : Module}

/-- No method of an image is lost. -/
theorem methodCount_eq (hparts : partsOf image = .ok parts) :
    parts.methodCount = (parts.tables.rowCount .methodDef).toNat := by
  obtain ⟨⟨data, hdata⟩, -⟩ := partsOf_eq_ok hparts
  exact parts.tables.size_methodRows (TablesStream.isBounded_of_read hdata)

theorem methodCount_lt (hparts : partsOf image = .ok parts) : parts.methodCount < 0x100000000 :=
  methodCount_eq hparts ▸ UInt32.toNat_lt _

theorem size_methods (hsize : owners.declaring.size = parts.methodCount)
    (hmodule : parts.withOwners image owners = .ok module) :
    module.methods.size = parts.methodCount := by
  have hlength := (withOwners_eq_ok hmodule).2.2.length_eq
  rw [Array.length_toList, Array.length_toList, Array.size_zip, hsize, methodCount,
    Nat.min_self] at hlength
  exact hlength.symm

/-- Methods have the tokens of their places. -/
theorem token_of_methods (hmodule : parts.withOwners image owners = .ok module) {i : Nat}
    {method : ModuleMethod} (hmethod : module.methods[i]? = some method) :
    method.token = .methodDef (i + 1).toUInt32 := by
  obtain ⟨entry, hentry, htoken, -⟩ :=
    exists_getElem?_of_forall₂ (withOwners_eq_ok hmodule).2.2.flip hmethod
  obtain ⟨hrow, -⟩ := Array.getElem?_zip_eq_some.mp hentry
  rw [htoken, Row.token, TablesStream.rid_rows (MethodDefRow.ensures_rid _) hrow]
  rfl

end Parts

/-- Types have the tokens of their places. -/
def NumbersTypes (module : Module) : Prop :=
  ∀ (i : Nat) (type : ModuleType), module.types[i]? = some type →
    type.token = .typeDef (i + 1).toUInt32

theorem numbersTypes_of_ofImage {image : Image} {module : Module}
    (hread : ofImage image = .ok module) : module.NumbersTypes := by
  intro i type htype
  obtain ⟨parts, owners, hparts, howners, hmodule⟩ := ofImage_eq_ok hread
  rw [(Parts.withOwners_eq_ok hmodule).1] at htype
  have hlists := listsRows_ownersOf (Parts.methodCount_lt hparts) howners
  obtain ⟨row, hrow, htoken⟩ := hlists.token i type htype
  rw [htoken, Row.token, TablesStream.rid_rows (TypeDefRow.ensures_rid _) hrow]
  rfl

/-- A module that is read from an image has the row counts that its stream of tables declares, and
lists all its methods. It lists its types up to the first one whose base type has a tag that stands
for no table, and so all of them exactly if there is no such type. A type or method in a place has
the token of the row of that number. -/
theorem ofImage_lists_rows {image : Image} {module : Module} (hread : ofImage image = .ok module) :
    ∃ parts, partsOf image = .ok parts ∧
      (∀ table, module.rowCount table = parts.tables.rowCount table) ∧
      module.methods.size = (module.rowCount .methodDef).toNat ∧
      module.types.size = ((List.range (module.rowCount .typeDef).toNat).takeWhile
        fun i => parts.tables.baseTag i < 3).length ∧
      (module.types.size = (module.rowCount .typeDef).toNat ↔
        ∀ i < (module.rowCount .typeDef).toNat, parts.tables.baseTag i < 3) ∧
      (∀ (i : Nat) (method : ModuleMethod), module.methods[i]? = some method →
        method.token = .methodDef (i + 1).toUInt32) ∧
      ∀ (i : Nat) (type : ModuleType), module.types[i]? = some type →
        type.token = .typeDef (i + 1).toUInt32 := by
  obtain ⟨parts, owners, hparts, howners, hmodule⟩ := ofImage_eq_ok hread
  obtain ⟨⟨data, hdata⟩, hcounts⟩ := partsOf_eq_ok hparts
  obtain ⟨htypes, hrowCounts, -⟩ := Parts.withOwners_eq_ok hmodule
  have hlists := listsRows_ownersOf (Parts.methodCount_lt hparts) howners
  have hcount (table : Table) : module.rowCount table = parts.tables.rowCount table := by
    rw [rowCount, hrowCounts, hcounts]
  have hlisted : module.types.size = ((List.range (module.rowCount .typeDef).toNat).takeWhile
      fun i => parts.tables.baseTag i < 3).length := by
    rw [htypes, hlists.size, hcount,
      parts.tables.size_typeRows (TablesStream.isBounded_of_read hdata)]
  refine ⟨parts, hparts, hcount, ?_, hlisted, ?_, fun i method => Parts.token_of_methods hmodule,
    numbersTypes_of_ofImage hread⟩
  · rw [Parts.size_methods hlists.size_declaring hmodule, Parts.methodCount_eq hparts, hcount]
  · rw [hlisted, length_takeWhile_range_iff]
    simp only [decide_eq_true_eq]

/-- The row of a type without a name, with some bits for its base type, and the row that its methods
start at. -/
def bareTypeForm (baseType methodList : UInt8) : List UInt8 :=
  [0, 0, 0, 0, 0, 0, 0, 0, baseType, 0, 1, 0, methodList, 0]

/-- The tables of three types and two methods. -/
def threeTypeTables (types : List (UInt8 × UInt8)) : List UInt8 :=
  [0, 0, 0, 0, 2, 0, 0, 1] ++ [0x44, 0, 0, 0, 0, 0, 0, 0] ++ List.replicate 8 0 ++
    [3, 0, 0, 0] ++ [2, 0, 0, 0] ++
    types.flatMap (fun (baseType, methodList) => bareTypeForm baseType methodList) ++
    List.replicate 28 0

/-- An image of one section: the header of its managed part, which is followed by metadata with the
tables of three types and an empty heap of strings. -/
def threeTypeImage (types : List (UInt8 × UInt8)) : Image where
  data := ([72, 0, 0, 0, 2, 0, 5, 0, 0x48, 0x20, 0, 0, 162, 0, 0, 0, 1, 0, 0, 0] ++
    List.replicate 52 0 ++
    [0x42, 0x53, 0x4A, 0x42, 1, 0, 1, 0, 0, 0, 0, 0, 4, 0, 0, 0, 118, 52, 0, 0, 0, 0, 2, 0] ++
    [56, 0, 0, 0, 102, 0, 0, 0, 35, 126, 0, 0] ++
    [158, 0, 0, 0, 4, 0, 0, 0, 35, 83, 116, 114, 105, 110, 103, 115, 0, 0, 0, 0] ++
    threeTypeTables types ++ [0, 0, 0, 0]).toArray
  is64Bit := false
  sections := [⟨0x1000, 0x2000, 0x1000, 0⟩]
  optional := ⟨false, 0, 0x200, List.replicate Image.clrDirectory ⟨0, 0⟩ ++ [⟨0x2000, 72⟩]⟩

/-- All types of an image are listed, as their base types have tags of tables. -/
theorem ofImage_lists_rows_threeTypes : ∃ parts module,
    partsOf (threeTypeImage [(0, 1), (1, 1), (2, 1)]) = .ok parts ∧
      ofImage (threeTypeImage [(0, 1), (1, 1), (2, 1)]) = .ok module ∧
      parts.tables.rowCount .typeDef = 3 ∧ module.types.size = 3 ∧ module.methods.size = 2 ∧
      ∀ i < 3, parts.tables.baseTag i < 3 := by
  have hcounts : (ofImage (threeTypeImage [(0, 1), (1, 1), (2, 1)])).toOption.map (fun module =>
      (module.rowCount .typeDef, module.rowCount .methodDef, module.types.size)) =
      some (3, 2, 3) := by
    decide +kernel
  obtain ⟨module, hread, hcounts⟩ := exists_ok_of_toOption_map hcounts
  simp only [Prod.mk.injEq] at hcounts
  obtain ⟨htypes, hmethods, hlisted⟩ := hcounts
  obtain ⟨parts, hparts, hcount, hsize, _, hall, _⟩ := ofImage_lists_rows hread
  rw [htypes, hlisted] at hall
  rw [hmethods] at hsize
  exact ⟨parts, module, hparts, hread, (hcount .typeDef).symm.trans htypes, hlisted, hsize,
    hall.mp rfl⟩

/-- The second of three types of an image has a base type with a tag that stands for no table. The
module has a count of three types and lists the first one, with the methods of the last one. -/
theorem ofImage_loses_types : ∃ parts module,
    partsOf (threeTypeImage [(0, 1), (3, 1), (0, 2)]) = .ok parts ∧
      ofImage (threeTypeImage [(0, 1), (3, 1), (0, 2)]) = .ok module ∧
      parts.tables.rowCount .typeDef = 3 ∧ module.rowCount .typeDef = 3 ∧
      module.types.map (fun type => (type.token, type.methods)) =
        #[(.typeDef 1, #[.methodDef 1, .methodDef 2])] := by
  have hlisted : (ofImage (threeTypeImage [(0, 1), (3, 1), (0, 2)])).toOption.map (fun module =>
      (module.rowCount .typeDef, module.types.map fun type => (type.token, type.methods))) =
      some (3, #[(.typeDef 1, #[.methodDef 1, .methodDef 2])]) := by
    decide +kernel
  obtain ⟨module, hread, hlisted⟩ := exists_ok_of_toOption_map hlisted
  obtain ⟨hcount, htypes⟩ := Prod.ext_iff.mp hlisted
  obtain ⟨parts, _, hparts, _, hmodule⟩ := ofImage_eq_ok hread
  refine ⟨parts, module, hparts, hread, ?_, hcount, htypes⟩
  rw [← (partsOf_eq_ok hparts).2, ← (Parts.withOwners_eq_ok hmodule).2.1]
  exact hcount

end Module

end PortablePdb
