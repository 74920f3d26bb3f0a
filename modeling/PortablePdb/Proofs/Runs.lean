import PortablePdb.Container.Builder
import PortablePdb.Proofs.Reading

namespace PortablePdb

variable {ε σ α β : Type} {state next : σ}

theorem run_bind_eq_ok_iff {action : EStateM ε σ α} {rest : α → EStateM ε σ β} {b : β} :
    (action >>= rest).run state = .ok b next ↔
      ∃ a middle, action.run state = .ok a middle ∧ (rest a).run middle = .ok b next := by
  rw [EStateM.run_bind]
  cases action.run state <;> simp [and_assoc]

theorem run_pure_eq_ok_iff {a b : α} :
    (pure a : EStateM ε σ α).run state = .ok b next ↔ a = b ∧ state = next := by
  rw [EStateM.run_pure]
  simp

theorem run_get_eq_ok_iff {value : σ} :
    (get : EStateM ε σ σ).run state = .ok value next ↔ state = value ∧ state = next := by
  change EStateM.Result.ok state state = EStateM.Result.ok value next ↔ _
  simp

theorem run_modify_eq_ok_iff {f : σ → σ} {done : Unit} :
    (modify f : EStateM ε σ Unit).run state = .ok done next ↔ f state = next := by
  change EStateM.Result.ok () (f state) = EStateM.Result.ok done next ↔ _
  simp

theorem run_throw_ne_ok {error : ε} {a : α} :
    (throw error : EStateM ε σ α).run state ≠ .ok a next := by
  change EStateM.Result.error error state ≠ _
  simp

/-- An action that is refused on some condition succeeds only without it. -/
theorem run_guard_eq_ok_iff {condition : Prop} [Decidable condition] {error : ε}
    {more : α → EStateM ε σ β} {rest : EStateM ε σ β} {b : β} :
    (if condition then (throw error : EStateM ε σ α) >>= more else rest).run state = .ok b next ↔
      ¬ condition ∧ rest.run state = .ok b next := by
  by_cases hcondition : condition
  · rw [if_pos hcondition, run_bind_eq_ok_iff]
    constructor
    · rintro ⟨a, middle, hthrow, _⟩
      exact absurd hthrow run_throw_ne_ok
    · rintro ⟨hnot, _⟩
      exact absurd hcondition hnot
  · rw [if_neg hcondition]
    exact ⟨fun hrest => ⟨hcondition, hrest⟩, fun hboth => hboth.2⟩

theorem run_map_eq_ok_iff {action : EStateM ε σ α} {f : α → β} {b : β} :
    (f <$> action).run state = .ok b next ↔ ∃ a, action.run state = .ok a next ∧ f a = b := by
  rw [map_eq_pure_bind, run_bind_eq_ok_iff]
  constructor
  · rintro ⟨a, middle, haction, hpure⟩
    obtain ⟨rfl, rfl⟩ := run_pure_eq_ok_iff.mp hpure
    exact ⟨a, haction, rfl⟩
  · rintro ⟨a, haction, rfl⟩
    exact ⟨a, next, haction, run_pure_eq_ok_iff.mpr ⟨rfl, rfl⟩⟩

theorem run_discard_eq_ok_iff {action : EStateM ε σ α} {done : Unit} :
    (discard action).run state = .ok done next ↔ ∃ a, action.run state = .ok a next := by
  constructor
  · intro hrun
    obtain ⟨a, haction, _⟩ := run_map_eq_ok_iff.mp hrun
    exact ⟨a, haction⟩
  · rintro ⟨a, haction⟩
    exact run_map_eq_ok_iff.mpr ⟨a, haction, rfl⟩

theorem run_bind_eq_error_iff {action : EStateM ε σ α} {rest : α → EStateM ε σ β} {error : ε} :
    (action >>= rest).run state = .error error next ↔
      action.run state = .error error next ∨
        ∃ a middle, action.run state = .ok a middle ∧ (rest a).run middle = .error error next := by
  rw [EStateM.run_bind]
  cases action.run state <;> simp [and_assoc]

theorem run_pure_ne_error {a : α} {error : ε} :
    (pure a : EStateM ε σ α).run state ≠ .error error next := by
  rw [EStateM.run_pure]
  simp

theorem run_modify_ne_error {f : σ → σ} {error : ε} :
    (modify f : EStateM ε σ Unit).run state ≠ .error error next := by
  change EStateM.Result.ok () (f state) ≠ _
  simp

theorem run_throw_eq_error_iff {thrown error : ε} :
    (throw thrown : EStateM ε σ α).run state = .error error next ↔
      thrown = error ∧ state = next := by
  change EStateM.Result.error thrown state = .error error next ↔ _
  simp

/-- An action whose value is only taken over fails where the action does. -/
theorem run_bind_pure_eq_error_iff {action : EStateM ε σ α} {f : α → β} {error : ε} :
    (action >>= fun a => pure (f a)).run state = .error error next ↔
      action.run state = .error error next := by
  rw [run_bind_eq_error_iff]
  constructor
  · rintro (haction | ⟨_, _, _, hpure⟩)
    · exact haction
    · exact absurd hpure run_pure_ne_error
  · exact .inl

theorem run_discard_eq_error_iff {action : EStateM ε σ α} {error : ε} :
    (discard action).run state = .error error next ↔ action.run state = .error error next := by
  change ((fun _ => ()) <$> action).run state = _ ↔ _
  rw [map_eq_pure_bind]
  exact run_bind_pure_eq_error_iff

/-- An action that first looks at its state fails only afterwards. -/
theorem run_get_bind_eq_error_iff {rest : σ → EStateM ε σ β} {error : ε} :
    (get >>= rest).run state = .error error next ↔ (rest state).run state = .error error next :=
  Iff.rfl

/-- An action that is refused on some condition fails with it, or in its rest without it. -/
theorem run_guard_eq_error_iff {condition : Prop} [Decidable condition] {refusal error : ε}
    {more : α → EStateM ε σ β} {rest : EStateM ε σ β} :
    (if condition then (throw refusal : EStateM ε σ α) >>= more else rest).run state =
        .error error next ↔
      condition ∧ refusal = error ∧ state = next ∨
        ¬ condition ∧ rest.run state = .error error next := by
  by_cases hcondition : condition
  · rw [if_pos hcondition, run_bind_eq_error_iff, run_throw_eq_error_iff]
    constructor
    · rintro (hthrow | ⟨_, _, hthrow, _⟩)
      · exact .inl ⟨hcondition, hthrow⟩
      · exact absurd hthrow run_throw_ne_ok
    · rintro (⟨_, hthrow⟩ | ⟨hnot, _⟩)
      · exact .inl hthrow
      · exact absurd hcondition hnot
  · rw [if_neg hcondition]
    simp [hcondition]

namespace HeapBuilders

variable {heaps after : HeapBuilders}

theorem run_onStrings_eq_ok_iff {action : EStateM Error StringHeap.Builder α} {a : α} :
    (onStrings action).run heaps = .ok a after ↔
      ∃ strings, action.run heaps.strings = .ok a strings ∧ { heaps with strings } = after := by
  simp only [onStrings, EStateM.run]
  cases action heaps.strings <;> simp [and_assoc]

theorem run_onBlobs_eq_ok_iff {action : EStateM Error BlobHeap.Builder α} {a : α} :
    (onBlobs action).run heaps = .ok a after ↔
      ∃ blobs, action.run heaps.blobs = .ok a blobs ∧ { heaps with blobs } = after := by
  simp only [onBlobs, EStateM.run]
  cases action heaps.blobs <;> simp [and_assoc]

theorem run_onGuids_eq_ok_iff {action : EStateM Error GuidHeap.Builder α} {a : α} :
    (onGuids action).run heaps = .ok a after ↔
      ∃ guids, action.run heaps.guids = .ok a guids ∧ { heaps with guids } = after := by
  simp only [onGuids, EStateM.run]
  cases action heaps.guids <;> simp [and_assoc]

theorem run_onBlobs_eq_error_iff {action : EStateM Error BlobHeap.Builder α} {error : Error} :
    (onBlobs action).run heaps = .error error after ↔
      ∃ blobs, action.run heaps.blobs = .error error blobs ∧ { heaps with blobs } = after := by
  simp only [onBlobs, EStateM.run]
  cases action heaps.blobs <;> simp [and_assoc]

theorem run_onGuids_eq_error_iff {action : EStateM Error GuidHeap.Builder α} {error : Error} :
    (onGuids action).run heaps = .error error after ↔
      ∃ guids, action.run heaps.guids = .error error guids ∧ { heaps with guids } = after := by
  simp only [onGuids, EStateM.run]
  cases action heaps.guids <;> simp [and_assoc]

end HeapBuilders

namespace DebugBuilder

variable {builder after : DebugBuilder}

theorem run_onHeaps_eq_ok_iff {action : EStateM Error HeapBuilders α} {a : α} :
    (onHeaps action).run builder = .ok a after ↔
      ∃ heaps, action.run builder.heaps = .ok a heaps ∧ { builder with heaps } = after := by
  simp only [onHeaps, EStateM.run]
  cases action builder.heaps <;> simp [and_assoc]

theorem run_onHeaps_eq_error_iff {action : EStateM Error HeapBuilders α} {error : Error} :
    (onHeaps action).run builder = .error error after ↔
      ∃ heaps, action.run builder.heaps = .error error heaps ∧ { builder with heaps } = after := by
  simp only [onHeaps, EStateM.run]
  cases action builder.heaps <;> simp [and_assoc]

theorem run_orFail_eq_error_iff {result : Except Error α} {error : Error} :
    (orFail result).run builder = .error error after ↔ result = .error error ∧ builder = after := by
  cases result with
  | ok value =>
    simp only [orFail, reduceCtorEq, false_and, iff_false]
    exact run_pure_ne_error
  | error thrown =>
    rw [orFail, run_throw_eq_error_iff]
    simp

theorem run_orFail_eq_ok_iff {result : Except Error α} {a : α} :
    (orFail result).run builder = .ok a after ↔ result = .ok a ∧ builder = after := by
  cases result with
  | ok value => simp [orFail]
  | error error =>
    simp only [orFail, reduceCtorEq, false_and, iff_false]
    exact run_throw_ne_ok

theorem run_checkMethod_eq_ok_iff {method : Token} {done : Unit} :
    (checkMethod method).run builder = .ok done after ↔
      method.isTable .methodDef = true ∧ builder = after := by
  unfold checkMethod
  split
  · next hmethod => simp [hmethod]
  · next hmethod =>
    exact ⟨fun hthrow => absurd hthrow run_throw_ne_ok, fun hmethods => absurd hmethods.1 hmethod⟩

theorem run_checkMethod_eq_error_iff {method : Token} {error : Error} :
    (checkMethod method).run builder = .error error after ↔
      method.isTable .methodDef = false ∧ .invalidMethod method = error ∧ builder = after := by
  unfold checkMethod
  split
  · next hmethod =>
    simp only [hmethod, Bool.true_eq_false, false_and, iff_false]
    exact run_pure_ne_error
  · next hmethod =>
    rw [run_throw_eq_error_iff]
    simp [hmethod]

end DebugBuilder

end PortablePdb
