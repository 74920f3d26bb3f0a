import PortablePdb.Proofs.Checked.Container
import PortablePdb.Proofs.Checked.Image
import PortablePdb.Proofs.Owners

namespace PortablePdb

theorem ModuleRow.size_eq_rowSize (layout : Layout) :
    Row.size ModuleRow layout = (Row.table ModuleRow).rowSize layout := by
  simp only [Row.size, Row.table, Table.rowSize, Table.columns, List.foldr, Column.size]
  omega

theorem TypeDefRow.size_eq_rowSize (layout : Layout) :
    Row.size TypeDefRow layout = (Row.table TypeDefRow).rowSize layout := by
  simp only [Row.size, Row.table, Table.rowSize, Table.columns, List.foldr, Column.size]
  omega

theorem MethodDefRow.size_eq_rowSize (layout : Layout) :
    Row.size MethodDefRow layout = (Row.table MethodDefRow).rowSize layout := by
  simp only [Row.size, Row.table, Table.rowSize, Table.columns, List.foldr, Column.size]
  omega

theorem NestedClassRow.size_eq_rowSize (layout : Layout) :
    Row.size NestedClassRow layout = (Row.table NestedClassRow).rowSize layout := by
  simp only [Row.size, Row.table, Table.rowSize, Table.columns, List.foldr, Column.size]
  omega

namespace Checked

section Instances

open ReadsAs

instance : CheckedRow ModuleRow where
  read info rid := do
    return {
      rid
      generation := ← le16
      name := ← index info.wideStrings
      mvid := ← index info.wideGuids
      encId := ← index info.wideGuids
      encBaseId := ← index info.wideGuids }
  readsAs _ _ :=
    readsAs_le16.andThen fun _ _ => (readsAs_index _).andThen fun _ _ =>
      (readsAs_index _).andThen fun _ _ => (readsAs_index _).andThen fun _ _ =>
        (readsAs_index _).andThen fun _ _ => pure trivial
  relocates _ _ :=
    Relocates.le16.bind fun _ => (Relocates.index _).bind fun _ => (Relocates.index _).bind fun _ =>
      (Relocates.index _).bind fun _ => (Relocates.index _).bind_pure _
  size_eq := ModuleRow.size_eq_rowSize

instance : CheckedRow TypeDefRow where
  read info rid := do
    return {
      rid
      flags := ← le32
      typeName := ← index info.wideStrings
      typeNamespace := ← index info.wideStrings
      baseType := ← codedIndex info .typeDefOrRef
      fieldList := ← rowIndex info .field
      methodList := ← rowIndex info .methodDef }
  readsAs layout _ :=
    readsAs_le32.andThen fun _ _ => (readsAs_index _).andThen fun _ _ =>
      (readsAs_index _).andThen fun _ _ => (readsAs_codedIndex layout _).andThen fun _ _ =>
        (readsAs_rowIndex layout _).andThen fun _ _ =>
          (readsAs_rowIndex layout _).andThen fun _ _ => pure trivial
  relocates layout _ :=
    Relocates.le32.bind fun _ => (Relocates.index _).bind fun _ => (Relocates.index _).bind fun _ =>
      (relocates_codedIndex layout _).bind fun _ => (Relocates.index _).bind fun _ =>
        (Relocates.index _).bind_pure _
  size_eq := TypeDefRow.size_eq_rowSize

instance : CheckedRow MethodDefRow where
  read info rid := do
    return {
      rid
      rva := ← le32
      implFlags := ← le16
      flags := ← le16
      name := ← index info.wideStrings
      signature := ← index info.wideBlobs
      paramList := ← rowIndex info .param }
  readsAs layout _ :=
    readsAs_le32.andThen fun _ _ => readsAs_le16.andThen fun _ _ => readsAs_le16.andThen fun _ _ =>
      (readsAs_index _).andThen fun _ _ => (readsAs_index _).andThen fun _ _ =>
        (readsAs_rowIndex layout _).andThen fun _ _ => pure trivial
  relocates _ _ :=
    Relocates.le32.bind fun _ => Relocates.le16.bind fun _ => Relocates.le16.bind fun _ =>
      (Relocates.index _).bind fun _ => (Relocates.index _).bind fun _ =>
        (Relocates.index _).bind_pure _
  size_eq := MethodDefRow.size_eq_rowSize

instance : CheckedRow NestedClassRow where
  read info rid := do
    return {
      rid
      nestedClass := ← rowIndex info .typeDef
      enclosingClass := ← rowIndex info .typeDef }
  readsAs layout _ :=
    (readsAs_rowIndex layout _).andThen fun _ _ => (readsAs_rowIndex layout _).andThen fun _ _ =>
      pure trivial
  relocates _ _ := (Relocates.index _).bind fun _ => (Relocates.index _).bind_pure _
  size_eq := NestedClassRow.size_eq_rowSize

end Instances

/-- Reads one more stream, if a module has need of it. -/
def addStream (metadata : Bytes) (streams : Module.Streams) (header : StreamHeader) :
    Except Error Module.Streams := do
  let stop := header.offset.toNat + header.size.toNat
  if Word.long.limit ≤ stop then throw .outOfBounds
  if metadata.size < stop then throw .outOfBounds
  let data ← slice metadata header.offset.toNat stop
  if header.name = "#~" || header.name = "#-" then
    return { streams with tables := some (← tablesStream data none) }
  else if header.name = "#Strings" then
    return { streams with strings := some (← stringHeap data) }
  else return streams

/-- The name of a module, if it has a row. -/
def moduleName (tables : TablesStream) (strings : StringHeap) : Except Error String := do
  match ← table? ModuleRow tables with
  | none => return ""
  | some table =>
    match ← row? table 1 with
    | none => return ""
    | some row => stringAt strings row.name.toNat

/-- The parts of an image. -/
def partsOf (image : Image) : Except Error Module.Parts := do
  let directory ← image.clrDirectoryOf
  let clrOffset ← offsetIn directory.address.toNat image.sections
  let header ← clrHeader (← imageSlice image clrOffset directory.size.toNat)
  let metadataOffset ← offsetIn header.metadataAddress.toNat image.sections
  let metadata ← imageSlice image metadataOffset header.metadataSize.toNat
  let root ← root metadata
  let streams ← root.streams.foldlM (addStream metadata) {}
  let some tables := streams.tables | reject .noTablesStream
  let some strings := streams.strings | reject .noStringsHeap
  let rowCounts ← (← summary tables).foldlM (fun counts (table, rows) =>
    putRows counts table.id rows) RowCounts.none
  return { header, tables, strings, rowCounts, name := ← moduleName tables strings }

/-- The tokens of the methods of a type. -/
def methodRun (types : Array TypeDefRow) (methodCount index : Nat) (type : TypeDefRow) :
    Except Error (Array Token) := do
  let next ← add .long index 1
  let last ← add .word methodCount 1
  let stop := match types[next]? with
    | some next => min next.methodList.toNat last
    | none => last
  let start := type.methodList.toNat
  let rids := (List.range' start (stop - start)).filter (· ≠ 0)
  return (← rids.mapM fun rid => token .methodDef rid.toUInt32).toArray

/-- Notes the type that declares some methods, at the index that the token of each gives. -/
def declare (type : Token) (owners methods : Array Token) : Except Error (Array Token) :=
  methods.foldlM (fun owners method => do put owners (← sub method.row.toNat 1) type) owners

/-- The type that encloses the type in a row. -/
def enclosingOf (nesting : Array NestedClassRow) (rid : UInt32) : Except Error (Option Token) :=
  match nesting.toList.reverse.find? (·.nestedClass == rid) with
  | none => .ok none
  | some row => do return some (← token .typeDef row.enclosingClass)

/-- Adds the type in a row. -/
def addOwner (strings : StringHeap) (typeRows : Array TypeDefRow) (nesting : Array NestedClassRow)
    (owners : Module.Owners) (index : Nat) (row : TypeDefRow) : Except Error Module.Owners := do
  let methods ← methodRun typeRows owners.declaring.size index row
  let declaring ← declare (Row.token row) owners.declaring methods
  let namespaceName ← stringAt strings row.typeNamespace.toNat
  let name ← stringAt strings row.typeName.toNat
  let enclosing ← enclosingOf nesting row.rid
  return {
    types := owners.types.push ⟨Row.token row, namespaceName, name, enclosing, methods⟩
    declaring }

/-- The types of the module, and for each method the type that declares it. -/
def owners (parts : Module.Parts) : Except Error Module.Owners := do
  let typeRows ← rows TypeDefRow parts.tables
  let methodRows ← rows MethodDefRow parts.tables
  let nesting ← rows NestedClassRow parts.tables
  typeRows.toList.zipIdx.foldlM
    (fun owners (row, index) => addOwner parts.strings typeRows nesting owners index row)
    { declaring := Array.replicate methodRows.size ⟨0⟩ }

/-- The module, when the owners of its methods are known. -/
def withOwners (parts : Module.Parts) (image : Image) (owners : Module.Owners) :
    Except Error Module := do
  let methodRows ← rows MethodDefRow parts.tables
  let methods ← (methodRows.zip owners.declaring).mapM fun (row, declaringType) => do
    let code ← codeAt image row.rva
    return ModuleMethod.mk (Row.token row) (← stringAt parts.strings row.name.toNat) declaringType
      code
  let entries ← debugEntries image
  let codeView ← codeView? image
  return {
    name := parts.name, methods, types := owners.types, rowCounts := parts.rowCounts
    entryPoint := parts.header.entryPoint?.getD ⟨0⟩
    debugEntries := entries, codeView }

/-- The module in an image. -/
def moduleOf (image : Image) : Except Error Module := do
  let parts ← partsOf image
  withOwners parts image (← owners parts)

/-- Tables lie within a stream that fits a word. -/
structure AreBounded (tables : TablesStream) : Prop where
  isBounded : tables.IsBounded
  size_lt : tables.data.size < Word.word.limit

/-- The tables among the streams that were read so far are bounded. -/
def HasBounded (streams : Module.Streams) : Prop :=
  ∀ tables, streams.tables = some tables → AreBounded tables

theorem agrees_addStream {metadata : Bytes} (hsize : metadata.size < memory)
    {streams : Module.Streams} (hstreams : HasBounded streams) (header : StreamHeader) :
    Agrees (addStream metadata streams header) (Module.Streams.add metadata streams header)
      HasBounded := by
  have hoffset := header.offset.toNat_lt
  have hlength := header.size.toNat_lt
  simp only [addStream]
  rw [if_neg (by simp only [Word.limit]; omega)]
  refine Agrees.guard outOfBounds_ne_fault fun hstop => ?_
  have hdata : (metadata.extract header.offset.toNat
      (header.offset.toNat + header.size.toNat)).size < Word.word.limit := by
    simp only [Array.size_extract, Word.limit]
    omega
  refine Agrees.step (slice_eq (Nat.le_add_right _ _) (by omega)) ?_
  refine Agrees.ite (fun _ => ?_) fun _ => Agrees.ite (fun _ => ?_) fun _ => Agrees.pure hstreams
  · refine (agrees_tablesStream (by simp only [Array.size_extract]; omega) none).bind
      fun tables htables => Agrees.pure ?_
    rintro _ ⟨⟩
    exact ⟨htables.1, htables.2 ▸ hdata⟩
  · exact (agrees_stringHeap _).bind fun _ _ => Agrees.pure hstreams

theorem AreBounded.rows_eq {tables : TablesStream} (htables : AreBounded tables) (ρ : Type) [Row ρ]
    [CheckedRow ρ] : rows ρ tables = .ok (tables.rows ρ) :=
  Checked.rows_eq (Nat.lt_trans htables.size_lt (by decide)) htables.isBounded

theorem agrees_moduleName {tables : TablesStream} (htables : AreBounded tables)
    (strings : StringHeap) :
    Agrees (moduleName tables strings)
      (match (tables.table? ModuleRow).bind (·.row? 1) with
        | some row => strings.stringAt row.name.toNat
        | none => pure "") fun _ => True := by
  have hsize := Nat.lt_trans htables.size_lt (show Word.word.limit < memory by decide)
  obtain ⟨heq, hwithin⟩ := table?_eq (ρ := ModuleRow) hsize htables.isBounded
  refine Agrees.step heq ?_
  cases htable : tables.table? ModuleRow with
  | none => exact Agrees.pure trivial
  | some table =>
    obtain ⟨hdata, hle⟩ := hwithin table htable
    refine Agrees.step (row?_eq (hdata ▸ hsize) hle 1) ?_
    rw [Option.bind_some]
    cases table.row? 1 with
    | none => exact Agrees.pure trivial
    | some row => exact agrees_stringAt strings _

theorem agrees_partsOf {image : Image} (hsize : image.data.size < memory) :
    Agrees (partsOf image) (Module.partsOf image) fun parts => AreBounded parts.tables := by
  have hdirectory : Agrees image.clrDirectoryOf image.clrDirectoryOf fun _ => True := by
    unfold Image.clrDirectoryOf
    split
    · exact Agrees.ok trivial
    · exact Agrees.throw nofun
  refine hdirectory.bind fun directory _ => (agrees_offsetIn _ _).bind fun clrOffset _ => ?_
  refine (agrees_imageSlice hsize clrOffset _).bind fun headerData hheaderData => ?_
  refine (agrees_clrHeader hheaderData.2).bind fun header _ => ?_
  refine (agrees_offsetIn _ _).bind fun metadataOffset _ => ?_
  refine (agrees_imageSlice hsize metadataOffset _).bind fun metadata hmetadata => ?_
  refine (agrees_root hmetadata.2).bind fun root _ => ?_
  have hempty : HasBounded {} := nofun
  refine (Agrees.foldlM (fun header _ streams hstreams =>
    agrees_addStream hmetadata.2 hstreams header) hempty).bind fun streams hstreams => ?_
  cases htables : streams.tables with
  | none => exact Agrees.throw nofun
  | some tables =>
    cases hstrings : streams.strings with
    | none => exact Agrees.throw nofun
    | some strings =>
      have hbounded := hstreams tables htables
      have hname := agrees_moduleName hbounded strings
      refine Agrees.step (summary_eq tables) <| Agrees.step (foldlM_putRows _ _) ?_
      simp only
      cases hrow : (tables.table? ModuleRow).bind (·.row? 1) with
      | none =>
        rw [hrow] at hname
        exact hname.bind fun name _ => Agrees.pure hbounded
      | some row =>
        rw [hrow] at hname
        exact hname.bind fun name _ => Agrees.pure hbounded

theorem methodRun_eq {types : Array TypeDefRow} {methodCount index : Nat}
    (hcount : methodCount + 1 < Word.word.limit) (hindex : index + 1 < Word.long.limit)
    (type : TypeDefRow) :
    methodRun types methodCount index type =
      .ok (Module.methodRun types methodCount index type) := by
  simp only [methodRun]
  rw [add_eq hindex, ok_bind, add_eq hcount, ok_bind, mapM_eq_ok fun rid _ => token_eq .methodDef _]
  rfl

/-- The index of a method is out of range exactly where the plain one is. -/
theorem declare_eq (type : Token) (owners methods : Array Token) :
    declare type owners methods = Module.declare type owners methods := by
  unfold declare Module.declare
  congr 1
  funext owners method
  by_cases hpos : 0 < method.row.toNat
  · rw [sub_eq hpos, ok_bind, put, within]
    by_cases hle : method.row.toNat ≤ owners.size
    · rw [if_pos (by omega), if_pos (by simp [hpos, hle])]
    · rw [if_neg (by omega), if_neg (by simp [hle])]
  · rw [if_neg (by simp [hpos]), sub, within, if_neg (by omega)]
    rfl

theorem enclosingOf_eq (nesting : Array NestedClassRow) (rid : UInt32) :
    enclosingOf nesting rid = .ok (Module.enclosingOf nesting rid) := by
  unfold enclosingOf Module.enclosingOf
  cases nesting.toList.reverse.find? (·.nestedClass == rid) with
  | none => rfl
  | some row =>
    simp only [token_eq]
    rfl

theorem addOwner_eq {strings : StringHeap} {types : Array TypeDefRow}
    {nesting : Array NestedClassRow} {owners : Module.Owners} {index : Nat}
    (hcount : owners.declaring.size + 1 < Word.word.limit) (hindex : index + 1 < Word.long.limit)
    (row : TypeDefRow) :
    addOwner strings types nesting owners index row =
      owners.add strings types nesting index row := by
  rw [addOwner, methodRun_eq hcount hindex, ok_bind, declare_eq, Module.Owners.add]
  refine bind_congr fun declaring => ?_
  rw [(agrees_stringAt strings _).eq]
  refine bind_congr fun namespaceName => ?_
  rw [(agrees_stringAt strings _).eq]
  refine bind_congr fun name => ?_
  rw [enclosingOf_eq]
  rfl

theorem foldlM_addOwner_eq {strings : StringHeap} {types : Array TypeDefRow}
    {nesting : Array NestedClassRow} {owners : Module.Owners}
    (hcount : owners.declaring.size + 1 < Word.word.limit) {rows : List (TypeDefRow × Nat)}
    (hrows : ∀ row ∈ rows, row.2 + 1 < Word.long.limit) :
    rows.foldlM (fun owners (row, index) => addOwner strings types nesting owners index row)
        owners =
      rows.foldlM (fun owners (row, index) => owners.add strings types nesting index row)
        owners := by
  induction rows generalizing owners with
  | nil => rfl
  | cons row rows ih =>
    obtain ⟨type, index⟩ := row
    rw [List.foldlM_cons, List.foldlM_cons]
    simp only [addOwner_eq hcount (hrows _ List.mem_cons_self)]
    cases hafter : owners.add strings types nesting index type with
    | error error => rfl
    | ok after =>
      have hsize := Module.size_of_add (Nat.lt_of_succ_lt hcount) hafter
      exact ih (hsize ▸ hcount) fun other hother => hrows other (List.mem_cons_of_mem _ hother)

/-- A stream that fits a word has no more methods than numbers that fit a word. -/
theorem AreBounded.size_methods_lt {tables : TablesStream} (htables : AreBounded tables) :
    (tables.rows MethodDefRow).size + 1 < Word.word.limit := by
  have hsize := Nat.lt_trans htables.size_lt (show Word.word.limit < memory by decide)
  obtain ⟨-, hwithin⟩ := table?_eq (ρ := MethodDefRow) hsize htables.isBounded
  rw [TablesStream.rows]
  cases htable : tables.table? MethodDefRow with
  | none => decide
  | some table =>
    obtain ⟨hdata, hle⟩ := hwithin table htable
    have hlt := htables.size_lt
    rw [← hdata] at hlt
    have hrows := table.size_rows_le
    have hrowSize : 8 ≤ table.rowSize := by
      simp only [RowTable.rowSize, Row.size]
      omega
    have hbytes : table.count.toNat * 8 ≤ table.size := Nat.mul_le_mul_left _ hrowSize
    simp only [Option.map_some, Option.getD_some, Word.limit] at *
    omega

theorem owners_eq {parts : Module.Parts} (htables : AreBounded parts.tables) :
    owners parts = parts.owners := by
  have hrows (row : TypeDefRow × Nat)
      (hrow : row ∈ (parts.tables.rows TypeDefRow).toList.zipIdx) :
      row.2 + 1 < Word.long.limit := by
    have hindex := (List.getElem?_eq_some_iff.mp (List.mem_zipIdx_iff_getElem?.mp hrow)).1
    have hlt := size_rows_lt TypeDefRow parts.tables
    simp only [Array.length_toList, Word.limit] at *
    omega
  rw [owners, htables.rows_eq, ok_bind, htables.rows_eq, ok_bind, htables.rows_eq, ok_bind]
  exact foldlM_addOwner_eq (by simpa using htables.size_methods_lt) hrows

theorem agrees_withOwners {parts : Module.Parts} {image : Image} (hsize : image.data.size < memory)
    (htables : AreBounded parts.tables) (owners : Module.Owners) :
    Agrees (withOwners parts image owners) (parts.withOwners image owners) fun _ => True := by
  refine Agrees.step (htables.rows_eq MethodDefRow) ?_
  have hmethod (row : MethodDefRow × Token) (_ : row ∈ (parts.tables.rows MethodDefRow).zip
      owners.declaring) :
      Agrees
        (do
          let code ← codeAt image row.1.rva
          return ModuleMethod.mk (Row.token row.1)
            (← stringAt parts.strings row.1.name.toNat) row.2 code)
        (do
          return ModuleMethod.mk (Row.token row.1)
            (← parts.strings.stringAt row.1.name.toNat) row.2 (Module.codeAt image row.1.rva))
        fun _ => True :=
    Agrees.step (codeAt_eq hsize _) <| (agrees_stringAt _ _).bind fun _ _ => Agrees.pure trivial
  refine (Agrees.mapM_array hmethod).bind fun methods _ => ?_
  refine (agrees_debugEntries hsize).bind fun entries _ => ?_
  exact (agrees_codeView? hsize).bind fun codeView _ => Agrees.pure trivial

theorem moduleOf_eq {image : Image} (hsize : image.data.size < memory) :
    moduleOf image = Module.ofImage image := by
  obtain ⟨heq, hbounded, -⟩ := agrees_partsOf hsize
  rw [Module.ofImage_eq, moduleOf, heq]
  cases hparts : Module.partsOf image with
  | error error => rfl
  | ok parts =>
    have htables := hbounded parts hparts
    rw [ok_bind, ok_bind, owners_eq htables]
    exact bind_congr fun owners => (agrees_withOwners hsize htables owners).eq

theorem ofImage_eq_fault_iff {image : Image} (hsize : image.data.size < memory) :
    Module.ofImage image = .error .fault ↔
      ∃ parts, Module.partsOf image = .ok parts ∧ parts.LosesOwner := by
  obtain ⟨-, hbounded, hfault⟩ := agrees_partsOf hsize
  rw [Module.ofImage_eq, bind_eq_error_iff, or_iff_right hfault]
  refine exists_congr fun parts => and_congr_right fun hparts => ?_
  have htables := hbounded parts hparts
  have hcount : parts.methodCount < 0x100000000 := Nat.lt_of_succ_lt htables.size_methods_lt
  rw [← Module.Parts.owners_eq_fault_iff hcount, bind_eq_error_iff]
  refine or_iff_left ?_
  rintro ⟨owners, _, howners⟩
  exact (agrees_withOwners hsize htables owners).ne_fault howners

/-- Whatever the headers and the metadata of an image are, where addresses have 64 bits the loader
that checks every slice, index, sum, difference and shift gives what the plain one gives. It leaves
the range of an operation in one case only: when a type, before which all types have their names,
has a method whose row is a multiple of 2 ^ 24, so that its token names no row to note the owner at.
There is no such case for images of fewer methods. -/
theorem image_in_range {image : Image} (hsize : image.data.size < memory) :
    moduleOf image = Module.ofImage image ∧
      (Module.ofImage image = .error .fault ↔
        ∃ parts, Module.partsOf image = .ok parts ∧ parts.LosesOwner) ∧
      ∀ parts, Module.partsOf image = .ok parts → parts.methodCount < 0x1000000 →
        Module.ofImage image ≠ .error .fault := by
  refine ⟨moduleOf_eq hsize, ofImage_eq_fault_iff hsize, fun parts hparts hfew hfault => ?_⟩
  obtain ⟨other, hother, index, type, -, hloses, -⟩ := (ofImage_eq_fault_iff hsize).mp hfault
  rw [hparts] at hother
  cases hother
  have hle := Module.le_of_losesMethod (by omega) hloses
  omega

/-- An image of one section that starts with its own header of the managed part, followed by
metadata with a stream that ends far behind them. -/
def overflowingImage : Image where
  data := Bytes.le32 72 ++ Bytes.le16 2 ++ Bytes.le16 5 ++ Bytes.le32 0x2048 ++ Bytes.le32 40 ++
    Bytes.le32 1 ++ Array.replicate 52 0 ++ overflowingRoot
  is64Bit := false
  sections := [⟨0x1000, 0x2000, 0x1000, 0⟩]
  optional := ⟨false, 0, 0x200, List.replicate Image.clrDirectory ⟨0, 0⟩ ++ [⟨0x2000, 72⟩]⟩

theorem image_in_range_overflowingImage :
    overflowingImage.data.size < memory ∧
      moduleOf overflowingImage = Module.ofImage overflowingImage ∧
      Module.ofImage overflowingImage = reject (.streamOverflow 0xFFFFFFFF 0xFFFFFFFF) := by
  have hsize : overflowingImage.data.size < memory := by decide
  exact ⟨hsize, (image_in_range hsize).1, by rfl⟩

/-- A type whose methods start at the first row whose token names no row. -/
def lateType : TypeDefRow where
  rid := 1
  flags := 0
  typeName := 0
  typeNamespace := 0
  baseType := ⟨.typeDef, 0⟩
  fieldList := 1
  methodList := 0x1000000

/-- Of a module with 2 ^ 24 methods, the last one alone is enough to leave the range of an index. -/
theorem ownersOf_lateType :
    Module.ownersOf ⟨#[0]⟩ #[lateType] #[] 0x1000000 = .error .fault := by
  have hsize : (Array.replicate 0x1000000 (⟨0⟩ : Token)).size = 0x1000000 := Array.size_replicate
  rw [Module.ownersOf, Module.foldlM_add_eq_fault_iff (by rw [hsize]; decide)]
  refine ⟨0, lateType, rfl, ?_, fun _ hlt => absurd hlt (Nat.not_lt_zero _)⟩
  rw [hsize]
  exact ⟨Token.methodDef 0x1000000, by simp [Module.methodRun, lateType], by decide⟩

end Checked

end PortablePdb
