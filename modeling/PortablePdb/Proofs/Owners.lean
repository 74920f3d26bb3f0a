import PortablePdb.Module.Load
import PortablePdb.Proofs.Checked.Heaps

namespace PortablePdb

namespace Module

/-- What the metadata of an image tell before the types are gone through. -/
structure Parts where
  header : ClrHeader
  tables : TablesStream
  strings : StringHeap
  rowCounts : RowCounts
  name : String

/-- The parts of an image. -/
def partsOf (image : Image) : Except Error Parts := do
  let directory ← image.clrDirectoryOf
  let clrOffset ← image.addressToOffset directory.address.toNat
  let header ← ClrHeader.read (← image.slice clrOffset directory.size.toNat)
  let metadataOffset ← image.addressToOffset header.metadataAddress.toNat
  let metadata ← image.slice metadataOffset header.metadataSize.toNat
  let root ← Root.read metadata
  let streams ← root.streams.foldlM (Streams.add metadata) {}
  let some tables := streams.tables | reject .noTablesStream
  let some strings := streams.strings | reject .noStringsHeap
  let rowCounts := tables.summary.foldl (fun counts (table, rows) => counts.setTable table rows)
    RowCounts.none
  let name ← match (tables.table? ModuleRow).bind (·.row? 1) with
    | some row => strings.stringAt row.name.toNat
    | none => pure ""
  return { header, tables, strings, rowCounts, name }

namespace Parts

/-- The number of rows of methods that can be read. -/
def methodCount (parts : Parts) : Nat :=
  (parts.tables.rows MethodDefRow).size

/-- The types of the module, and for each method the type that declares it. -/
def owners (parts : Parts) : Except Error Owners :=
  ownersOf parts.strings (parts.tables.rows TypeDefRow) (parts.tables.rows NestedClassRow)
    parts.methodCount

/-- The module, when the owners of its methods are known. -/
def withOwners (parts : Parts) (image : Image) (owners : Owners) : Except Error Module := do
  let methodRows := parts.tables.rows MethodDefRow
  let methods ← (methodRows.zip owners.declaring).mapM fun (row, declaringType) => do
    return ModuleMethod.mk (Row.token row) (← parts.strings.stringAt row.name.toNat) declaringType
      (codeAt image row.rva)
  let debugEntries ← image.debugEntries
  let codeView ← image.codeView?
  return {
    name := parts.name, methods, types := owners.types, rowCounts := parts.rowCounts
    entryPoint := parts.header.entryPoint?.getD ⟨0⟩
    debugEntries, codeView }

end Parts

/-- A module is loaded in three steps: its parts, the owners of its methods, and the rest. -/
theorem ofImage_eq (image : Image) :
    ofImage image = (do
      let parts ← partsOf image
      let owners ← parts.owners
      parts.withOwners image owners) := by
  unfold ofImage partsOf
  simp only [bind_assoc]
  refine bind_congr fun directory => bind_congr fun clrOffset => bind_congr fun headerData =>
    bind_congr fun header => bind_congr fun metadataOffset => bind_congr fun metadata =>
    bind_congr fun root => bind_congr fun streams => ?_
  cases streams.tables with
  | none => rfl
  | some tables =>
    cases streams.strings with
    | none => rfl
    | some strings =>
      simp only
      cases (tables.table? ModuleRow).bind (·.row? 1) with
      | none => rfl
      | some row =>
        simp only [bind_assoc, pure_bind]
        rfl

/-- The names of a type are in the heap of strings. -/
def IsNamed (strings : StringHeap) (type : TypeDefRow) : Prop :=
  (∃ name, strings.stringAt type.typeNamespace.toNat = .ok name) ∧
    ∃ name, strings.stringAt type.typeName.toNat = .ok name

/-- The token of some method of a type names no row. -/
def LosesMethod (types : Array TypeDefRow) (methodCount index : Nat) (type : TypeDefRow) : Prop :=
  ∃ method ∈ methodRun types methodCount index type, method.row = 0

/-- The names of the methods of a type are within the module. -/
theorem row_le_of_mem_methodRun {types : Array TypeDefRow} {methodCount index : Nat}
    {type : TypeDefRow} {method : Token} (hcount : methodCount < 0x100000000)
    (hmethod : method ∈ methodRun types methodCount index type) :
    ∃ rid, 0 < rid ∧ rid ≤ methodCount ∧ method.row.toNat = rid % 0x1000000 := by
  simp only [methodRun, List.mem_toArray, List.mem_map, List.mem_filter, List.mem_range'_1,
    decide_eq_true_eq] at hmethod
  obtain ⟨rid, ⟨⟨hfirst, hlast⟩, hne⟩, rfl⟩ := hmethod
  have hstop {start stop : Nat} (hstart : start ≤ rid) (hlt : rid < start + (stop - start)) :
      rid < stop := by omega
  have hlt : rid < methodCount + 1 := by
    cases hnext : types[index + 1]? with
    | none =>
      rw [hnext] at hlast
      exact hstop hfirst hlast
    | some next =>
      rw [hnext] at hlast
      exact Nat.lt_of_lt_of_le (hstop hfirst hlast) (Nat.min_le_right _ _)
  have hle : rid ≤ methodCount := Nat.le_of_lt_succ hlt
  refine ⟨rid, Nat.pos_of_ne_zero hne, hle, ?_⟩
  rw [Token.methodDef, Token.toNat_row_ofParts, Nat.toUInt32_eq, UInt32.toNat_ofNat_of_lt']
  exact Nat.lt_of_le_of_lt hle hcount

/-- Only where there are 2 ^ 24 methods or more is the row of a method lost in its token. -/
theorem le_of_losesMethod {types : Array TypeDefRow} {methodCount index : Nat} {type : TypeDefRow}
    (hcount : methodCount < 0x100000000) (hloses : LosesMethod types methodCount index type) :
    0x1000000 ≤ methodCount := by
  obtain ⟨method, hmethod, hzero⟩ := hloses
  obtain ⟨rid, hpos, hle, hrow⟩ := row_le_of_mem_methodRun hcount hmethod
  rw [hzero, UInt32.toNat_zero] at hrow
  omega

theorem declare_of_rows (type : Token) {methods : List Token} {owners : Array Token}
    (hrows : ∀ method ∈ methods, method.row ≠ 0 ∧ method.row.toNat ≤ owners.size) :
    ∃ after, declare type owners methods.toArray = .ok after ∧ after.size = owners.size := by
  simp only [declare, List.foldlM_toArray]
  induction methods generalizing owners with
  | nil => exact ⟨owners, rfl, rfl⟩
  | cons method methods ih =>
    obtain ⟨hne, hle⟩ := hrows method List.mem_cons_self
    have hpos : 0 < method.row.toNat := Nat.pos_of_ne_zero fun hzero =>
      hne (UInt32.toNat_inj.mp hzero)
    have hrest (other : Token) (hother : other ∈ methods) : other.row ≠ 0 ∧
        other.row.toNat ≤ (owners.setIfInBounds (method.row.toNat - 1) type).size := by
      rw [Array.size_setIfInBounds]
      exact hrows other (List.mem_cons_of_mem method hother)
    obtain ⟨after, hafter, hsize⟩ := ih hrest
    refine ⟨after, ?_, hsize.trans Array.size_setIfInBounds⟩
    rw [List.foldlM_cons, if_pos (by simp [hpos, hle])]
    exact hafter

theorem declare_of_lost (type : Token) (owners : Array Token) {methods : List Token}
    (hlost : ∃ method ∈ methods, method.row = 0) :
    declare type owners methods.toArray = .error .fault := by
  simp only [declare, List.foldlM_toArray]
  induction methods generalizing owners with
  | nil =>
    obtain ⟨_, hmem, _⟩ := hlost
    cases hmem
  | cons method methods ih =>
    rw [List.foldlM_cons]
    by_cases hrow : (0 < method.row.toNat && method.row.toNat ≤ owners.size) = true
    · rw [if_pos hrow]
      obtain ⟨other, hother, hzero⟩ := hlost
      refine ih _ ⟨other, (List.mem_cons.mp hother).resolve_left ?_, hzero⟩
      rintro rfl
      rw [hzero] at hrow
      cases hrow
    · rw [if_neg hrow]
      rfl

section Owners

variable {strings : StringHeap} {types : Array TypeDefRow} {nesting : Array NestedClassRow}
  {owners : Owners} {index : Nat} {type : TypeDefRow}

theorem stringAt_ne_fault (strings : StringHeap) (index : Nat) :
    strings.stringAt index ≠ .error .fault :=
  (Checked.agrees_stringAt strings index).ne_fault

theorem add_of_loses (hloses : LosesMethod types owners.declaring.size index type) :
    owners.add strings types nesting index type = .error .fault := by
  obtain ⟨method, hmethod, hzero⟩ := hloses
  have hlost := declare_of_lost (Row.token type) owners.declaring
    ⟨method, Array.mem_toList_iff.mpr hmethod, hzero⟩
  rw [Array.toArray_toList] at hlost
  rw [Owners.add, hlost]
  rfl

/-- A type all of whose methods have rows is added if its names can be read. -/
theorem add_of_kept (hcount : owners.declaring.size < 0x100000000)
    (hkept : ¬ LosesMethod types owners.declaring.size index type) :
    (IsNamed strings type ∧ ∃ after, owners.add strings types nesting index type = .ok after ∧
        after.declaring.size = owners.declaring.size) ∨
      ¬ IsNamed strings type ∧
        ∃ error, error ≠ .fault ∧ owners.add strings types nesting index type = .error error := by
  have hrows (method : Token) (hmethod : method ∈ (methodRun types owners.declaring.size index
      type).toList) : method.row ≠ 0 ∧ method.row.toNat ≤ owners.declaring.size := by
    have hmem := Array.mem_toList_iff.mp hmethod
    obtain ⟨rid, _, hle, hrow⟩ := row_le_of_mem_methodRun hcount hmem
    exact ⟨fun hzero => hkept ⟨method, hmem, hzero⟩, by omega⟩
  obtain ⟨declaring, hdeclare, hsize⟩ := declare_of_rows (Row.token type) hrows
  rw [Array.toArray_toList] at hdeclare
  rw [Owners.add, hdeclare, ok_bind]
  cases hspace : strings.stringAt type.typeNamespace.toNat with
  | error error =>
    refine .inr ⟨fun hnamed => ?_, error, ?_, rfl⟩
    · obtain ⟨⟨name, hname⟩, -⟩ := hnamed
      rw [hspace] at hname
      cases hname
    · rintro rfl
      exact stringAt_ne_fault strings _ hspace
  | ok space =>
    rw [ok_bind]
    cases hname : strings.stringAt type.typeName.toNat with
    | error error =>
      refine .inr ⟨fun hnamed => ?_, error, ?_, rfl⟩
      · obtain ⟨-, name, hother⟩ := hnamed
        rw [hname] at hother
        cases hother
      · rintro rfl
        exact stringAt_ne_fault strings _ hname
    | ok name => exact .inl ⟨⟨⟨space, hspace⟩, name, hname⟩, _, rfl, hsize⟩

/-- Going through types fails out of range exactly at one that loses a method, when the names of all
types before it can be read. -/
theorem foldlM_add_eq_fault_iff (hcount : owners.declaring.size < 0x100000000)
    (rows : List TypeDefRow) (first : Nat) :
    (rows.zipIdx first).foldlM
        (fun owners (row, index) => owners.add strings types nesting index row) owners =
        .error .fault ↔
      ∃ i type, rows[i]? = some type ∧
        LosesMethod types owners.declaring.size (first + i) type ∧
        ∀ j < i, ∀ earlier, rows[j]? = some earlier → IsNamed strings earlier := by
  induction rows generalizing owners first with
  | nil => exact ⟨nofun, nofun⟩
  | cons row rows ih =>
    rw [List.zipIdx_cons, List.foldlM_cons]
    simp only
    by_cases hloses : LosesMethod types owners.declaring.size first row
    · rw [add_of_loses hloses]
      exact ⟨fun _ => ⟨0, row, rfl, hloses, nofun⟩, fun _ => rfl⟩
    · rcases add_of_kept hcount hloses with
        ⟨hnamed, after, hafter, hsize⟩ | ⟨hnamed, error, hfault, herror⟩
      · rw [hafter, ok_bind, ih (hsize ▸ hcount), hsize]
        constructor
        · rintro ⟨i, type, htype, hlost, hearlier⟩
          refine ⟨i + 1, type, htype, by rwa [Nat.add_right_comm, Nat.add_assoc] at hlost, ?_⟩
          rintro (_ | j) hj earlier hrow
          · cases hrow
            exact hnamed
          · exact hearlier j (Nat.lt_of_succ_lt_succ hj) earlier hrow
        · rintro ⟨_ | i, type, htype, hlost, hearlier⟩
          · cases htype
            exact absurd hlost hloses
          · refine ⟨i, type, htype, by rwa [Nat.add_right_comm, Nat.add_assoc], ?_⟩
            exact fun j hj earlier hrow => hearlier (j + 1) (Nat.succ_lt_succ hj) earlier hrow
      · rw [herror]
        constructor
        · intro heq
          exact absurd (Except.error.inj heq) hfault
        · rintro ⟨_ | i, type, htype, hlost, hearlier⟩
          · cases htype
            exact absurd hlost hloses
          · exact absurd (hearlier 0 (Nat.succ_pos i) row rfl) hnamed

/-- A type that is added leaves the number of methods as it is. -/
theorem size_of_add {after : Owners} (hcount : owners.declaring.size < 0x100000000)
    (hafter : owners.add strings types nesting index type = .ok after) :
    after.declaring.size = owners.declaring.size := by
  by_cases hloses : LosesMethod types owners.declaring.size index type
  · rw [add_of_loses hloses] at hafter
    cases hafter
  · rcases add_of_kept hcount hloses with ⟨_, other, hother, hsize⟩ | ⟨_, error, _, herror⟩
    · rw [hother] at hafter
      exact Except.ok.inj hafter ▸ hsize
    · rw [herror] at hafter
      cases hafter

/-- A type that is added comes last. It has the names that its row points to and the methods of its
run, and is noted as their owner. -/
theorem add_eq_ok {after : Owners}
    (hafter : owners.add strings types nesting index type = .ok after) :
    ∃ added : ModuleType, after.types = owners.types.push added ∧
      added.token = Row.token type ∧
      strings.stringAt type.typeNamespace.toNat = .ok added.namespaceName ∧
      strings.stringAt type.typeName.toNat = .ok added.name ∧
      added.enclosing = enclosingOf nesting type.rid ∧
      added.methods = methodRun types owners.declaring.size index type ∧
      declare added.token owners.declaring added.methods = .ok after.declaring := by
  obtain ⟨declaring, hdeclare, hafter⟩ := bind_eq_ok_iff.mp hafter
  obtain ⟨space, hspace, hafter⟩ := bind_eq_ok_iff.mp hafter
  obtain ⟨name, hname, hafter⟩ := bind_eq_ok_iff.mp hafter
  rw [← pure_eq_ok_iff.mp hafter]
  exact ⟨_, rfl, rfl, hspace, hname, rfl, rfl, hdeclare⟩

/-- What a type that is added keeps is true when all types have been gone through. -/
theorem foldlM_add_induction {motive : Nat → Owners → Prop}
    (hstep : ∀ {index type before after}, types[index]? = some type → motive index before →
      before.add strings types nesting index type = .ok after → motive (index + 1) after)
    {rows : List TypeDefRow} {first : Nat} (hrows : types.toList.drop first = rows)
    (hfirst : motive first owners) {after : Owners}
    (hafter : (rows.zipIdx first).foldlM
      (fun owners (row, index) => owners.add strings types nesting index row) owners = .ok after) :
    motive (first + rows.length) after := by
  induction rows generalizing owners first with
  | nil =>
    cases hafter
    exact hfirst
  | cons row rows ih =>
    rw [List.zipIdx_cons, List.foldlM_cons] at hafter
    obtain ⟨middle, hmiddle, hafter⟩ := bind_eq_ok_iff.mp hafter
    have htype : types[first]? = some row := by
      rw [← Array.getElem?_toList, ← List.head?_drop, hrows, List.head?_cons]
    have hrest : types.toList.drop (first + 1) = rows := by
      rw [← List.tail_drop, hrows, List.tail_cons]
    rw [List.length_cons, Nat.add_comm rows.length, ← Nat.add_assoc]
    exact ih hrest (hstep htype hfirst hmiddle) hafter

/-- What holds before the first type and is kept by each holds of the owners of all methods. -/
theorem ownersOf_induction {methodCount : Nat} {motive : Nat → Owners → Prop}
    (hstart : motive 0 { declaring := Array.replicate methodCount ⟨0⟩ })
    (hstep : ∀ {index type before after}, types[index]? = some type → motive index before →
      before.add strings types nesting index type = .ok after → motive (index + 1) after)
    (howners : ownersOf strings types nesting methodCount = .ok owners) :
    motive types.size owners := by
  have hkeeps := foldlM_add_induction hstep List.drop_zero hstart howners
  rwa [Nat.zero_add, Array.length_toList] at hkeeps

end Owners

namespace Parts

variable {parts : Parts}

/-- A type of the module, before which all types have their names, loses a method. -/
def LosesOwner (parts : Parts) : Prop :=
  ∃ index type, (parts.tables.rows TypeDefRow)[index]? = some type ∧
    LosesMethod (parts.tables.rows TypeDefRow) parts.methodCount index type ∧
    ∀ j < index, ∀ earlier, (parts.tables.rows TypeDefRow)[j]? = some earlier →
      IsNamed parts.strings earlier

theorem owners_eq_fault_iff (hcount : parts.methodCount < 0x100000000) :
    parts.owners = .error .fault ↔ parts.LosesOwner := by
  have hsize : (Array.replicate parts.methodCount (⟨0⟩ : Token)).size = parts.methodCount :=
    Array.size_replicate
  rw [owners, ownersOf, foldlM_add_eq_fault_iff (by simpa using hcount), LosesOwner]
  simp only [hsize, Nat.zero_add, Array.getElem?_toList]

end Parts

end Module

end PortablePdb
