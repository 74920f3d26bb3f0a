import PortablePdb.Proofs.Finish

namespace PortablePdb

section Sorting

variable {α : Type}

/-- A list holds the elements of another one in the order of their keys, and elements with the same
key in the order that they had. -/
structure IsSortedBy (key : α → UInt32) (original sorted : List α) : Prop where
  perm : sorted.Perm original
  ordered : sorted.Pairwise fun a b => key a ≤ key b
  stable : ∀ k, sorted.filter (key · == k) = original.filter (key · == k)

theorem isSortedBy_mergeSort (key : α → UInt32) (xs : List α) :
    IsSortedBy key xs (xs.mergeSort fun a b => key a ≤ key b) := by
  have htrans (a b c : α) (hab : decide (key a ≤ key b) = true)
      (hbc : decide (key b ≤ key c) = true) : decide (key a ≤ key c) = true := by
    simp only [decide_eq_true_eq] at *
    exact UInt32.le_trans hab hbc
  have htotal (a b : α) : (decide (key a ≤ key b) || decide (key b ≤ key a)) = true := by
    simpa using UInt32.le_total (key a) (key b)
  exact {
    perm := List.mergeSort_perm _ _
    ordered := (List.pairwise_mergeSort htrans htotal xs).imp fun hle => of_decide_eq_true hle
    stable := by
      intro k
      apply filter_mergeSort htrans htotal
      intro a _ b _ hsameA hsameB
      rw [eq_of_beq hsameA, eq_of_beq hsameB]
      exact decide_eq_true UInt32.le_rfl }

end Sorting

theorem mapM_eq_error {ε α β : Type} {f : α → Except ε β} {xs : List α} {error : ε}
    (herror : xs.mapM f = .error error) : ∃ x ∈ xs, f x = .error error := by
  induction xs with
  | nil => cases herror
  | cons x xs ih =>
    rw [List.mapM_cons] at herror
    obtain hhead | ⟨_, _, herror⟩ := bind_eq_error_iff.mp herror
    · exact ⟨x, List.mem_cons_self, hhead⟩
    obtain htail | ⟨_, _, hpure⟩ := bind_eq_error_iff.mp herror
    · obtain ⟨other, hother, hfails⟩ := ih htail
      exact ⟨other, List.mem_cons_of_mem _ hother, hfails⟩
    · cases hpure

/-- The number of a row that custom debug information may be about. -/
def CodedIndex.infoKey (parent : CodedIndex) : UInt32 :=
  match parent.encode .hasCustomDebugInformation with
  | .ok key => key
  | .error _ => 0

theorem CodedIndex.infoKey_eq {parent : CodedIndex} {key : UInt32}
    (hkey : parent.encode .hasCustomDebugInformation = .ok key) : parent.infoKey = key := by
  rw [infoKey, hkey]

namespace DebugTables

theorem scopeLE_iff {first second : LocalScopeRow} : scopeLE first second = true ↔
    first.method < second.method ∨ first.method = second.method ∧
      (first.startOffset < second.startOffset ∨ first.startOffset = second.startOffset ∧
        second.length ≤ first.length) := by
  simp [scopeLE]

theorem scopeLE_trans (a b c : LocalScopeRow) (hab : scopeLE a b = true)
    (hbc : scopeLE b c = true) : scopeLE a c = true := by
  simp only [scopeLE_iff, UInt32.lt_iff_toNat_lt, UInt32.le_iff_toNat_le, ← UInt32.toNat_inj] at *
  omega

theorem scopeLE_total (a b : LocalScopeRow) : (scopeLE a b || scopeLE b a) = true := by
  simp only [Bool.or_eq_true, scopeLE_iff, UInt32.lt_iff_toNat_lt, UInt32.le_iff_toNat_le,
    ← UInt32.toNat_inj]
  omega

theorem checkScopes_eq_ok {rows : List LocalScopeRow}
    (hrows : rows.Pairwise fun a b => scopeLE a b = true) : checkScopes rows = .ok () := by
  fun_induction checkScopes rows with
  | case1 first second rest _ hunordered ih =>
    rw [List.rel_of_pairwise_cons hrows List.mem_cons_self] at hunordered
    cases hunordered
  | case2 first second rest _ hordered ih => exact ih hrows.tail
  | case3 => rfl

theorem checkMachines_eq_ok {rows : List StateMachineRow}
    (hrows : rows.Pairwise fun a b => a.moveNextMethod ≤ b.moveNextMethod) :
    checkMachines rows = .ok () := by
  fun_induction checkMachines rows with
  | case1 first second rest _ hlt ih =>
    exact absurd hlt (UInt32.not_lt.mpr (List.rel_of_pairwise_cons hrows List.mem_cons_self))
  | case2 first second rest _ hordered ih => exact ih hrows.tail
  | case3 => rfl

theorem checkInfo_eq_ok {rows : List CustomInfoRow}
    (hparents : ∀ row ∈ rows,
      row.parent.encode .hasCustomDebugInformation = .ok row.parent.infoKey)
    (hrows : rows.Pairwise fun a b => a.parent.infoKey ≤ b.parent.infoKey) :
    checkInfo rows = .ok () := by
  fun_induction checkInfo rows with
  | case1 first second rest ih =>
    obtain ⟨hfirst, hrest⟩ := List.pairwise_cons.mp hrows
    have hnext := hparents second (List.mem_cons_of_mem _ List.mem_cons_self)
    refine bind_eq_ok_iff.mpr ⟨_, hparents first List.mem_cons_self, ?_⟩
    refine bind_eq_ok_iff.mpr ⟨_, hnext, ?_⟩
    rw [if_neg (UInt32.not_lt.mpr (hfirst second List.mem_cons_self))]
    exact ih (fun row hrow => hparents row (List.mem_cons_of_mem _ hrow)) hrest
  | case2 => rfl

end DebugTables

namespace DebugBuilder

/-- The parents of records are sorted by their numbers. -/
theorem sortInfo_eq_mergeSort {records sorted : List (CodedIndex × UInt32 × UInt32)}
    (hsorted : sortInfo records = .ok sorted) :
    (∀ record ∈ records,
      record.1.encode .hasCustomDebugInformation = .ok record.1.infoKey) ∧
    sorted = records.mergeSort fun a b => a.1.infoKey ≤ b.1.infoKey := by
  obtain ⟨keyed, rfl, hkeys, rfl⟩ := sortInfo_eq hsorted
  constructor
  · intro record hrecord
    obtain ⟨entry, hentry, rfl⟩ := List.mem_map.mp hrecord
    rw [CodedIndex.infoKey_eq (hkeys entry hentry), hkeys entry hentry]
  · apply List.map_mergeSort
    intro a ha b hb
    rw [CodedIndex.infoKey_eq (hkeys a ha), CodedIndex.infoKey_eq (hkeys b hb)]

theorem sortInfo_eq_error {records : List (CodedIndex × UInt32 × UInt32)} {error : Error}
    (herror : sortInfo records = .error error) :
    ∃ record ∈ records, record.1.encode .hasCustomDebugInformation = .error error := by
  obtain hkeys | ⟨_, _, hpure⟩ := bind_eq_error_iff.mp herror
  · obtain ⟨record, hrecord, hfails⟩ := mapM_eq_error hkeys
    obtain hkey | ⟨_, _, hpure⟩ := bind_eq_error_iff.mp hfails
    · exact ⟨record, hrecord, hkey⟩
    · cases hpure
  · cases hpure

theorem exists_sortInfo {records : List (CodedIndex × UInt32 × UInt32)}
    (hrecords : ∀ record ∈ records, ∃ key,
      record.1.encode .hasCustomDebugInformation = .ok key) :
    ∃ sorted, sortInfo records = .ok sorted := by
  cases hsorted : sortInfo records with
  | ok sorted => exact ⟨sorted, rfl⟩
  | error error =>
    obtain ⟨record, hrecord, hrefused⟩ := sortInfo_eq_error hsorted
    obtain ⟨key, hkey⟩ := hrecords record hrecord
    rw [hkey] at hrefused
    cases hrefused

variable {builder : DebugBuilder} {count : UInt32}

theorem excessMethod?_eq_some {row : UInt32} (hexcess : builder.excessMethod? count = some row) :
    count < row ∧ builder.methods.contains row = true := by
  have hmem := List.min?_mem hexcess
  simpa [and_comm] using hmem

theorem excessMethod?_eq_none (hexcess : builder.excessMethod? count = none) {row : UInt32}
    (hrow : builder.methods.contains row = true) : row ≤ count := by
  have hempty := List.filter_eq_nil_iff.mp (List.min?_eq_none_iff.mp hexcess)
  have hkey := hempty row (Std.HashMap.mem_keys.mpr (Std.HashMap.mem_iff_contains.mpr hrow))
  simpa using hkey

/-- Tables that were numbered after sorting are in order. -/
theorem checkOrder_eq_ok {tables : DebugTables}
    {records : List (LocalScopeRow × List LocalVariableRow)} {machines : List (UInt32 × UInt32)}
    {infos sorted : List (CodedIndex × UInt32 × UInt32)}
    (hscopes : Lays count (records.mergeSort fun a b => DebugTables.scopeLE a.1 b.1)
      tables.localScopes tables.localVariables)
    (hmachines : Numbers (·.rid) BecomesMachine tables.stateMachines
      (machines.mergeSort fun a b => a.1 ≤ b.1))
    (hsorted : sortInfo infos = .ok sorted)
    (hinfo : Numbers (·.rid) BecomesInfo tables.customInfo sorted) :
    tables.checkOrder = .ok () := by
  refine bind_eq_ok_iff.mpr ⟨(), ?_, bind_eq_ok_iff.mpr ⟨(), ?_, ?_⟩⟩
  · apply DebugTables.checkScopes_eq_ok
    apply pairwise_of_forall₂ hscopes.numbersScopes.records (List.pairwise_mergeSort
      (fun a b c => DebugTables.scopeLE_trans a.1 b.1 c.1)
      (fun a b => DebugTables.scopeLE_total a.1 b.1) records)
    intro a b a' b' ha ha' hle
    rw [ha, ha']
    exact hle
  · apply DebugTables.checkMachines_eq_ok
    apply pairwise_of_forall₂ hmachines.records (isSortedBy_mergeSort Prod.fst machines).ordered
    rintro a _ a' _ rfl rfl hle
    exact hle
  · obtain ⟨hkeys, rfl⟩ := sortInfo_eq_mergeSort hsorted
    have hordered := isSortedBy_mergeSort (fun record => record.1.infoKey) infos
    apply DebugTables.checkInfo_eq_ok
    · intro row hrow
      obtain ⟨record, hrecord, rfl⟩ := exists_of_forall₂ hinfo.records hrow
      exact hkeys _ (hordered.perm.mem_iff.mp hrecord)
    · apply pairwise_of_forall₂ hinfo.records hordered.ordered
      rintro a _ a' _ rfl rfl hle
      exact hle

/-- Tables are finished as soon as all their rows are numbered. -/
theorem finish_eq_ok {localScopes : Array LocalScopeRow} {localVariables : Array LocalVariableRow}
    {stateMachines : Array StateMachineRow} {sorted : List (CodedIndex × UInt32 × UInt32)}
    {customInfo : Array CustomInfoRow} (hexcess : builder.excessMethod? count = none)
    (hscopes : numberScopes count (builder.localScopes.toList.mergeSort fun a b =>
      DebugTables.scopeLE a.1 b.1) #[] #[] = .ok (localScopes, localVariables))
    (hmachines : numberMachines (builder.machines.toList.mergeSort fun a b => a.1 ≤ b.1) #[] =
      .ok stateMachines)
    (hsorted : sortInfo builder.customInfo.toList = .ok sorted)
    (hinfo : numberInfo sorted #[] = .ok customInfo) :
    builder.finish count = .ok {
      documents := builder.documents
      methods := builder.methodRows count
      localScopes, localVariables, stateMachines, customInfo
      importScopes := builder.importScopes
      strings := builder.heaps.strings.toBytes
      blobs := builder.heaps.blobs.toBytes
      guids := builder.heaps.guids.toBytes } := by
  simp only [finish, hexcess, hscopes, hmachines, hsorted, hinfo, ok_bind]
  have hscopeRows := lays_of_numberScopes (lays_empty count) hscopes
  have hmachineRows := numbers_of_numberMachines (numbers_empty _ _) hmachines
  have hinfoRows := numbers_of_numberInfo (numbers_empty _ _) hinfo
  exact bind_eq_ok_iff.mpr ⟨(), checkOrder_eq_ok hscopeRows hmachineRows hsorted hinfoRows, rfl⟩

/-- What keeps tables from being finished: a method out of range, a table that is too long, or a
record about a row that no such record may be about. -/
theorem finish_eq_error {error : Error} (herror : builder.finish count = .error error) :
    (∃ row, count < row ∧ error = .invalidMethod (.methodDef row) ∧
      (builder.methods.contains row = true ∨
        builder.excessMethod? count = none ∧ ∃ scope ∈ builder.localScopes, scope.1.method = row)) ∨
    builder.excessMethod? count = none ∧ (error = .malformed .rowRange ∨
      ∃ record ∈ builder.customInfo,
        record.1.encode .hasCustomDebugInformation = .error error) := by
  have hfailed := herror
  simp only [finish] at herror
  split at herror
  · next row hexcess =>
    cases herror
    obtain ⟨hlt, hrow⟩ := excessMethod?_eq_some hexcess
    exact .inl ⟨row, hlt, rfl, .inl hrow⟩
  · next hexcess =>
    replace hexcess := Option.eq_none_iff_forall_ne_some.mpr hexcess
    obtain hscopes | ⟨⟨localScopes, localVariables⟩, hscopes, herror⟩ :=
      bind_eq_error_iff.mp herror
    · obtain hrange | ⟨scope, hscope, hlt, rfl⟩ := numberScopes_eq_error hscopes
      · exact .inr ⟨hexcess, .inl hrange⟩
      · have hmem := Array.mem_toList_iff.mp ((List.mergeSort_perm _ _).mem_iff.mp hscope)
        exact .inl ⟨scope.1.method, hlt, rfl, .inr ⟨hexcess, scope, hmem, rfl⟩⟩
    obtain hmachines | ⟨stateMachines, hmachines, herror⟩ := bind_eq_error_iff.mp herror
    · exact .inr ⟨hexcess, .inl (numberMachines_eq_error hmachines)⟩
    obtain hsorted | ⟨sorted, hsorted, herror⟩ := bind_eq_error_iff.mp herror
    · obtain ⟨record, hrecord, hkey⟩ := sortInfo_eq_error hsorted
      exact .inr ⟨hexcess, .inr ⟨record, Array.mem_toList_iff.mp hrecord, hkey⟩⟩
    obtain hinfo | ⟨customInfo, hinfo, herror⟩ := bind_eq_error_iff.mp herror
    · exact .inr ⟨hexcess, .inl (numberInfo_eq_error hinfo)⟩
    -- The tables are in order, so there is nothing left that could fail.
    rw [finish_eq_ok hexcess hscopes hmachines hsorted hinfo] at hfailed
    cases hfailed

end DebugBuilder

end PortablePdb
