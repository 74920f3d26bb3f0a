import PortablePdb.Proofs.Builder

namespace PortablePdb

variable {ρ τ : Type} {rid : ρ → UInt32} {rows : Array ρ}

/-- Rows have the numbers from one on. -/
def IsNumbered (rid : ρ → UInt32) (rows : Array ρ) : Prop :=
  ∀ i (hi : i < rows.size), (rid rows[i]).toNat = i + 1

theorem isNumbered_empty (rid : ρ → UInt32) : IsNumbered rid #[] :=
  nofun

theorem IsNumbered.push (hrows : IsNumbered rid rows) {row : ρ}
    (hrow : (rid row).toNat = rows.size + 1) : IsNumbered rid (rows.push row) := by
  intro i hi
  rw [Array.size_push] at hi
  by_cases hold : i < rows.size
  · rw [Array.getElem_push_lt hold]
    exact hrows i hold
  · obtain rfl : i = rows.size := by omega
    rw [Array.getElem_push_eq]
    exact hrow

theorem IsNumbered.nodup (hrows : IsNumbered rid rows) : (rows.toList.map rid).Nodup := by
  rw [List.Nodup, List.pairwise_map, List.pairwise_iff_getElem]
  intro i j hi hj hlt hsame
  have hfirst := hrows i hi
  have hsecond := hrows j hj
  rw [Array.getElem_toList, Array.getElem_toList] at hsame
  rw [hsame] at hfirst
  omega

/-- A number from one to the number of rows is that of a row. -/
theorem IsNumbered.exists_mem (hrows : IsNumbered rid rows) {number : UInt32}
    (hpos : number ≠ 0) (hle : number.toNat ≤ rows.size) : ∃ row ∈ rows, rid row = number := by
  have hnat : number.toNat ≠ 0 := fun hzero => hpos (UInt32.toNat_inj.mp hzero)
  have hlt : number.toNat - 1 < rows.size := by omega
  refine ⟨rows[number.toNat - 1], Array.getElem_mem hlt, UInt32.toNat_inj.mp ?_⟩
  rw [hrows]
  omega

/-- Rows are what became of records, in their order, and they are numbered. -/
structure Numbers (rid : ρ → UInt32) (becomes : ρ → τ → Prop) (rows : Array ρ)
    (records : List τ) : Prop where
  numbered : IsNumbered rid rows
  records : List.Forall₂ becomes rows.toList records

theorem numbers_empty (rid : ρ → UInt32) (becomes : ρ → τ → Prop) : Numbers rid becomes #[] [] :=
  ⟨isNumbered_empty rid, .nil⟩

/-- Rows that become records by taking a part of them have those parts. -/
theorem Numbers.map_eq {part : ρ → τ} {records : List τ}
    (hrows : Numbers rid (fun row record => part row = record) rows records) :
    rows.toList.map part = records := by
  have hparts := List.forall₂_map_left_iff.mpr hrows.records
  rwa [List.forall₂_eq_eq_eq] at hparts

theorem Numbers.push {becomes : ρ → τ → Prop} {records : List τ}
    (hrows : Numbers rid becomes rows records) {row : ρ} {record : τ}
    (hnext : DebugBuilder.nextRow rows.size = .ok (rid row)) (hrow : becomes row record) :
    Numbers rid becomes (rows.push row) (records ++ [record]) where
  numbered := hrows.numbered.push (DebugBuilder.nextRow_eq_ok hnext).1
  records := by
    rw [Array.toList_push]
    exact List.rel_append hrows.records (.cons hrow .nil)

namespace DebugBuilder

/-- Makes rows of records, each under the next number. -/
def numberEach (toRow : UInt32 → τ → ρ) : List τ → Array ρ → Except Error (Array ρ)
  | [], rows => .ok rows
  | record :: rest, rows => do
    let number ← nextRow rows.size
    numberEach toRow rest (rows.push (toRow number record))

section Each

variable {toRow : UInt32 → τ → ρ} {records : List τ} {before : Array ρ}

theorem numbers_of_numberEach {becomes : ρ → τ → Prop} {done : List τ}
    (hbefore : Numbers rid becomes before done)
    (hrows : numberEach toRow records before = .ok rows)
    (hrid : ∀ number record, rid (toRow number record) = number)
    (hbecomes : ∀ number record, becomes (toRow number record) record) :
    Numbers rid becomes rows (done ++ records) := by
  induction records generalizing before done with
  | nil =>
    cases hrows
    rwa [List.append_nil]
  | cons record records ih =>
    obtain ⟨number, hnext, hrows⟩ := bind_eq_ok_iff.mp hrows
    have hnumber : nextRow before.size = .ok (rid (toRow number record)) := by rwa [hrid]
    rw [List.append_cons]
    exact ih (hbefore.push hnumber (hbecomes number record)) hrows

theorem numberEach_eq_error {error : Error}
    (herror : numberEach toRow records before = .error error) : error = .malformed .rowRange := by
  induction records generalizing before with
  | nil => cases herror
  | cons record records ih =>
    obtain hnext | ⟨number, _, herror⟩ := bind_eq_error_iff.mp herror
    · exact nextRow_eq_error hnext
    · exact ih herror

/-- Records are numbered if there are not too many. -/
theorem exists_numberEach (toRow : UInt32 → τ → ρ) (records : List τ) {before : Array ρ}
    (hle : before.size + records.length ≤ 0xFFFFFF) :
    ∃ rows, numberEach toRow records before = .ok rows ∧
      rows.size = before.size + records.length := by
  induction records generalizing before with
  | nil => exact ⟨before, rfl, rfl⟩
  | cons record records ih =>
    rw [List.length_cons] at hle ⊢
    have hnext : nextRow before.size = .ok (before.size + 1).toUInt32 := if_pos (by omega)
    have hmore : (before.push (toRow (before.size + 1).toUInt32 record)).size + records.length ≤
        0xFFFFFF := by
      rw [Array.size_push]
      omega
    obtain ⟨rows, hrows, hsize⟩ := ih hmore
    rw [Array.size_push] at hsize
    exact ⟨rows, bind_eq_ok_iff.mpr ⟨_, hnext, hrows⟩, by omega⟩

end Each

/-- The row of a state machine has the methods of a record. -/
def BecomesMachine (row : StateMachineRow) (machine : UInt32 × UInt32) : Prop :=
  (row.moveNextMethod, row.kickoffMethod) = machine

theorem numberMachines_eq (machines : List (UInt32 × UInt32)) (before : Array StateMachineRow) :
    numberMachines machines before =
      numberEach (fun rid machine => ⟨rid, machine.1, machine.2⟩) machines before := by
  induction machines generalizing before with
  | nil => rfl
  | cons machine machines ih => exact bind_congr fun number => ih _

theorem numbers_of_numberMachines {machines done : List (UInt32 × UInt32)}
    {before rows : Array StateMachineRow} (hbefore : Numbers (·.rid) BecomesMachine before done)
    (hrows : numberMachines machines before = .ok rows) :
    Numbers (·.rid) BecomesMachine rows (done ++ machines) := by
  rw [numberMachines_eq] at hrows
  exact numbers_of_numberEach hbefore hrows (fun _ _ => rfl) fun _ _ => rfl

theorem numberMachines_eq_error {machines : List (UInt32 × UInt32)}
    {before : Array StateMachineRow} {error : Error}
    (herror : numberMachines machines before = .error error) : error = .malformed .rowRange :=
  numberEach_eq_error (numberMachines_eq _ _ ▸ herror)

theorem exists_numberMachines (machines : List (UInt32 × UInt32)) {before : Array StateMachineRow}
    (hle : before.size + machines.length ≤ 0xFFFFFF) :
    ∃ rows, numberMachines machines before = .ok rows := by
  obtain ⟨rows, hrows, _⟩ := exists_numberEach _ machines hle
  exact ⟨rows, (numberMachines_eq _ _).trans hrows⟩

/-- A row of custom debug information is the record with its number. -/
def BecomesInfo (row : CustomInfoRow) (record : CodedIndex × UInt32 × UInt32) : Prop :=
  (row.parent, row.kind, row.value) = record

theorem numberInfo_eq (records : List (CodedIndex × UInt32 × UInt32))
    (before : Array CustomInfoRow) : numberInfo records before =
      numberEach (fun rid record => ⟨rid, record.1, record.2.1, record.2.2⟩) records before := by
  induction records generalizing before with
  | nil => rfl
  | cons record records ih => exact bind_congr fun number => ih _

theorem numbers_of_numberInfo {records done : List (CodedIndex × UInt32 × UInt32)}
    {before rows : Array CustomInfoRow} (hbefore : Numbers (·.rid) BecomesInfo before done)
    (hrows : numberInfo records before = .ok rows) :
    Numbers (·.rid) BecomesInfo rows (done ++ records) := by
  rw [numberInfo_eq] at hrows
  exact numbers_of_numberEach hbefore hrows (fun _ _ => rfl) fun _ _ => rfl

theorem numberInfo_eq_error {records : List (CodedIndex × UInt32 × UInt32)}
    {before : Array CustomInfoRow} {error : Error}
    (herror : numberInfo records before = .error error) : error = .malformed .rowRange :=
  numberEach_eq_error (numberInfo_eq _ _ ▸ herror)

theorem exists_numberInfo (records : List (CodedIndex × UInt32 × UInt32))
    {before : Array CustomInfoRow} (hle : before.size + records.length ≤ 0xFFFFFF) :
    ∃ rows, numberInfo records before = .ok rows := by
  obtain ⟨rows, hrows, _⟩ := exists_numberEach _ records hle
  exact ⟨rows, (numberInfo_eq _ _).trans hrows⟩

/-- The row of a variable is the record with its number. -/
def BecomesVariable (row own : LocalVariableRow) : Prop :=
  row = { own with rid := row.rid }

theorem numberVariables_eq (own : List LocalVariableRow) (before : Array LocalVariableRow) :
    numberVariables own before = numberEach (fun rid row => { row with rid }) own before := by
  induction own generalizing before with
  | nil => rfl
  | cons row own ih => exact bind_congr fun number => ih _

theorem numbers_of_numberVariables {own done : List LocalVariableRow}
    {before rows : Array LocalVariableRow} (hbefore : Numbers (·.rid) BecomesVariable before done)
    (hrows : numberVariables own before = .ok rows) :
    Numbers (·.rid) BecomesVariable rows (done ++ own) := by
  rw [numberVariables_eq] at hrows
  exact numbers_of_numberEach hbefore hrows (fun _ _ => rfl) fun _ _ => rfl

theorem numberVariables_eq_error {own : List LocalVariableRow} {before : Array LocalVariableRow}
    {error : Error} (herror : numberVariables own before = .error error) :
    error = .malformed .rowRange :=
  numberEach_eq_error (numberVariables_eq _ _ ▸ herror)

theorem exists_numberVariables (own : List LocalVariableRow) {before : Array LocalVariableRow}
    (hle : before.size + own.length ≤ 0xFFFFFF) : ∃ rows, numberVariables own before = .ok rows ∧
      rows.size = before.size + own.length := by
  obtain ⟨rows, hrows, hsize⟩ := exists_numberEach _ own hle
  exact ⟨rows, (numberVariables_eq _ _).trans hrows, hsize⟩

/-- The row of a scope is the record with its number and the place where its variables start. -/
def BecomesScope (row : LocalScopeRow) (record : LocalScopeRow × List LocalVariableRow) : Prop :=
  row = { record.1 with rid := row.rid, variableList := row.variableList, constantList := 1 }

/-- Scopes and their variables are laid out in tables: all methods are within a range, and the
variables of a scope follow those of the scopes before it. -/
structure Lays (count : UInt32) (records : List (LocalScopeRow × List LocalVariableRow))
    (scopes : Array LocalScopeRow) (slots : Array LocalVariableRow) : Prop where
  numbersScopes : Numbers (·.rid) BecomesScope scopes records
  numbersSlots : Numbers (·.rid) BecomesVariable slots (records.flatMap (·.2))
  variableList : ∀ i (hi : i < scopes.size),
    scopes[i].variableList.toNat = ((records.take i).flatMap (·.2)).length + 1
  method_le : ∀ record ∈ records, record.1.method ≤ count

theorem lays_empty (count : UInt32) : Lays count [] #[] #[] :=
  ⟨numbers_empty _ _, numbers_empty _ _, nofun, nofun⟩

theorem Lays.push {count : UInt32} {records : List (LocalScopeRow × List LocalVariableRow)}
    {scopes : Array LocalScopeRow} {slots after : Array LocalVariableRow}
    (hlays : Lays count records scopes slots) {record : LocalScopeRow × List LocalVariableRow}
    {row : LocalScopeRow} (hmethod : record.1.method ≤ count)
    (hrid : nextRow scopes.size = .ok row.rid) (hlist : nextRow slots.size = .ok row.variableList)
    (hrow : BecomesScope row record) (hslots : numberVariables record.2 slots = .ok after) :
    Lays count (records ++ [record]) (scopes.push row) after where
  numbersScopes := hlays.numbersScopes.push hrid hrow
  numbersSlots := by
    simpa using numbers_of_numberVariables hlays.numbersSlots hslots
  variableList := by
    have hsize : scopes.size = records.length := hlays.numbersScopes.records.length_eq
    have htotal : slots.size = (records.flatMap (·.2)).length :=
      hlays.numbersSlots.records.length_eq
    intro i hi
    rw [Array.size_push] at hi
    rw [List.take_append_of_le_length (by omega)]
    by_cases hold : i < scopes.size
    · rw [Array.getElem_push_lt hold]
      exact hlays.variableList i hold
    · obtain rfl : i = scopes.size := by omega
      rw [Array.getElem_push_eq, (nextRow_eq_ok hlist).1, hsize, List.take_length, htotal]
  method_le other hother := by
    rcases List.mem_append.mp hother with hold | hnew
    · exact hlays.method_le other hold
    · rwa [List.mem_singleton.mp hnew]

/-- The variables of a scope start behind the last row at most. -/
theorem Lays.variableList_le {count : UInt32}
    {records : List (LocalScopeRow × List LocalVariableRow)} {scopes : Array LocalScopeRow}
    {slots : Array LocalVariableRow} (hlays : Lays count records scopes slots) :
    ∀ row ∈ scopes, row.variableList.toNat ≤ slots.size + 1 := by
  intro row hrow
  obtain ⟨i, hi, rfl⟩ := Array.mem_iff_getElem.mp hrow
  have htotal := hlays.numbersSlots.records.length_eq
  rw [← List.take_append_drop i records, List.flatMap_append, List.length_append,
    Array.length_toList] at htotal
  rw [hlays.variableList i hi]
  omega

theorem lays_of_numberScopes {count : UInt32}
    {records done : List (LocalScopeRow × List LocalVariableRow)}
    {before scopes : Array LocalScopeRow} {slots result : Array LocalVariableRow}
    (hbefore : Lays count done before slots)
    (hscopes : numberScopes count records before slots = .ok (scopes, result)) :
    Lays count (done ++ records) scopes result := by
  induction records generalizing done before slots with
  | nil =>
    cases hscopes
    rwa [List.append_nil]
  | cons record records ih =>
    obtain ⟨hmethod, hscopes⟩ := guard_eq_ok_iff.mp hscopes
    obtain ⟨rid, hrid, hscopes⟩ := bind_eq_ok_iff.mp hscopes
    obtain ⟨variableList, hlist, hscopes⟩ := bind_eq_ok_iff.mp hscopes
    obtain ⟨middle, hmiddle, hscopes⟩ := bind_eq_ok_iff.mp hscopes
    rw [List.append_cons]
    refine ih ?_ hscopes
    exact hbefore.push (UInt32.not_lt.mp hmethod) hrid hlist rfl hmiddle

/-- Scopes are refused if one of them has a method out of range, or if there are too many rows. -/
theorem numberScopes_eq_error {count : UInt32}
    {records : List (LocalScopeRow × List LocalVariableRow)} {before : Array LocalScopeRow}
    {slots : Array LocalVariableRow} {error : Error}
    (herror : numberScopes count records before slots = .error error) :
    error = .malformed .rowRange ∨ ∃ record ∈ records, count < record.1.method ∧
      error = .invalidMethod (.methodDef record.1.method) := by
  induction records generalizing before slots with
  | nil => cases herror
  | cons record records ih =>
    obtain ⟨hmethod, rfl⟩ | ⟨_, herror⟩ := guard_eq_error_iff.mp herror
    · exact .inr ⟨record, List.mem_cons_self, hmethod, rfl⟩
    obtain hrid | ⟨rid, _, herror⟩ := bind_eq_error_iff.mp herror
    · exact .inl (nextRow_eq_error hrid)
    obtain hlist | ⟨variableList, _, herror⟩ := bind_eq_error_iff.mp herror
    · exact .inl (nextRow_eq_error hlist)
    obtain hslots | ⟨middle, _, herror⟩ := bind_eq_error_iff.mp herror
    · exact .inl (numberVariables_eq_error hslots)
    obtain hrange | ⟨other, hother, hlt, rfl⟩ := ih herror
    · exact .inl hrange
    · exact .inr ⟨other, List.mem_cons_of_mem _ hother, hlt, rfl⟩

/-- Scopes without variables are numbered if there are not too many. -/
theorem exists_numberScopes {count : UInt32}
    {records : List (LocalScopeRow × List LocalVariableRow)}
    (hrecords : ∀ record ∈ records, record.1.method ≤ count ∧ record.2 = [])
    {before : Array LocalScopeRow} (hle : before.size + records.length ≤ 0xFFFFFF) :
    ∃ scopes, numberScopes count records before #[] = .ok (scopes, #[]) := by
  induction records generalizing before with
  | nil => exact ⟨before, rfl⟩
  | cons record records ih =>
    obtain ⟨row, slots⟩ := record
    obtain ⟨hmethod, hslots⟩ := hrecords _ List.mem_cons_self
    obtain rfl : slots = [] := hslots
    rw [List.length_cons] at hle
    have hnext : nextRow before.size = .ok (before.size + 1).toUInt32 := if_pos (by omega)
    have hmore : (before.push { row with
        rid := (before.size + 1).toUInt32, variableList := 1, constantList := 1 }).size +
          records.length ≤ 0xFFFFFF := by
      rw [Array.size_push]
      omega
    obtain ⟨scopes, hscopes⟩ := ih (fun other hother =>
      hrecords other (List.mem_cons_of_mem _ hother)) hmore
    refine ⟨scopes, guard_eq_ok_iff.mpr ⟨UInt32.not_lt.mpr hmethod, ?_⟩⟩
    exact bind_eq_ok_iff.mpr ⟨_, hnext, bind_eq_ok_iff.mpr ⟨1, rfl,
      bind_eq_ok_iff.mpr ⟨#[], rfl, hscopes⟩⟩⟩

end DebugBuilder

end PortablePdb
