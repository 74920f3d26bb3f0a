import PortablePdb.Proofs.Checked.Reader
import PortablePdb.Proofs.CustomInfo

namespace PortablePdb

namespace Reader

variable {α β : Type}

/-- The items up to the end of the data are the next one and those after it. -/
theorem runAt_items (item : Reader α) (data : Bytes) (position : Nat) :
    (items item).runAt data position =
      if position < data.size then
        match item.runAt data position with
        | .ok value next =>
          if position < next then
            match (items item).runAt data next with
            | .ok values stop => .ok (value :: values) stop
            | .error error stop => .error error stop
          else .error .fault next
        | .error error next => .error error next
      else .ok [] position := by
  change collect _ () data position = _
  rw [collect, runAt_bind]
  cases item.runAt data position <;> rfl

/-- A reader of a fixed number of bytes: it gives a value where there are as many, and nothing where
there are fewer. -/
structure IsFixed (reader : Reader α) (size : Nat) : Prop where
  exists_ok : ∀ data position, position + size ≤ data.size →
    ∃ value, reader.runAt data position = .ok value (position + size)
  exists_error : ∀ data position, data.size < position + size →
    ∃ stop, reader.runAt data position = .error .outOfBounds stop

theorem isFixed_bytes (count : Nat) : (bytes count).IsFixed count where
  exists_ok _ _ hle := ⟨_, runAt_bytes hle⟩
  exists_error _ position hlt := ⟨position, runAt_bytes_of_lt hlt⟩

namespace IsFixed

variable {reader : Reader α} {next : α → Reader β} {size more : Nat}

theorem bind (hreader : reader.IsFixed size) (hnext : ∀ value, (next value).IsFixed more) :
    (reader >>= next).IsFixed (size + more) where
  exists_ok data position hle := by
    obtain ⟨value, hvalue⟩ := hreader.exists_ok data position (by omega)
    obtain ⟨result, hresult⟩ := (hnext value).exists_ok data (position + size) (by omega)
    refine ⟨result, ?_⟩
    rw [runAt_bind, hvalue, ← Nat.add_assoc]
    exact hresult
  exists_error data position hlt := by
    by_cases hshort : data.size < position + size
    · obtain ⟨stop, hstop⟩ := hreader.exists_error data position hshort
      exact ⟨stop, by rw [runAt_bind, hstop]⟩
    · obtain ⟨value, hvalue⟩ := hreader.exists_ok data position (by omega)
      obtain ⟨stop, hstop⟩ := (hnext value).exists_error data (position + size) (by omega)
      refine ⟨stop, ?_⟩
      rw [runAt_bind, hvalue]
      exact hstop

theorem bind_pure (hreader : reader.IsFixed size) (f : α → β) :
    (reader >>= fun value => pure (f value)).IsFixed size where
  exists_ok data position hle := by
    obtain ⟨value, hvalue⟩ := hreader.exists_ok data position hle
    refine ⟨f value, ?_⟩
    rw [runAt_bind, hvalue]
    rfl
  exists_error data position hlt := by
    obtain ⟨stop, hstop⟩ := hreader.exists_error data position hlt
    exact ⟨stop, by rw [runAt_bind, hstop]⟩

/-- Items of a fixed size are read up to the end of the data if there are bytes for a number of
them, and not otherwise. -/
theorem items_cases (hreader : reader.IsFixed size) (hpos : 0 < size) {data : Bytes}
    {position : Nat} (hle : position ≤ data.size) :
    (data.size - position) % size = 0 ∧
      (∃ values, (items reader).runAt data position = .ok values data.size) ∨
    (data.size - position) % size ≠ 0 ∧
      ∃ stop, (items reader).runAt data position = .error .outOfBounds stop := by
  induction hrest : data.size - position using Nat.strongRecOn generalizing position with
  | ind rest ih =>
    rw [runAt_items]
    obtain hend | hmore : position = data.size ∨ position < data.size := by omega
    · left
      rw [if_neg (by omega), hend]
      exact ⟨by simp [← hrest, hend], [], rfl⟩
    rw [if_pos hmore]
    by_cases hshort : data.size < position + size
    · right
      obtain ⟨stop, hstop⟩ := hreader.exists_error data position hshort
      rw [hstop, Nat.mod_eq_of_lt (by omega)]
      exact ⟨by omega, stop, rfl⟩
    · obtain ⟨value, hvalue⟩ := hreader.exists_ok data position (by omega)
      have hmod : (rest - size) % size = rest % size := (Nat.mod_eq_sub_mod (by omega)).symm
      have hnext : position + size ≤ data.size := by omega
      have hlater := ih (rest - size) (by omega) hnext (by omega)
      rw [hmod] at hlater
      rw [hvalue]
      simp only
      rw [if_pos (by omega)]
      obtain ⟨hdivides, values, hvalues⟩ | ⟨hdivides, stop, hstop⟩ := hlater
      · exact .inl ⟨hdivides, value :: values, by rw [hvalues]⟩
      · exact .inr ⟨hdivides, stop, by rw [hstop]⟩

end IsFixed

theorem isFixed_le32 : le32.IsFixed 4 :=
  ((isFixed_bytes 4).bind_pure Bytes.natLE).bind_pure Nat.toUInt32

end Reader

namespace CustomInfo

open Reader

/-- An await can be stored with a method if it resumes there, or does not say where it does. -/
def ResumesIn (method : Token) (await : Await) : Prop :=
  await.resumeMethod.isNull = true ∨ await.resumeMethod = method

/-- The awaits of a method can be stored if each of them resumes in this method. -/
theorem exists_encodeAwaits_iff {method : Token} {awaits : List Await} :
    (∃ form, encodeAwaits method awaits = .ok form) ↔
      ∀ await ∈ awaits, ResumesIn method await := by
  induction awaits with
  | nil => exact iff_of_true ⟨_, rfl⟩ nofun
  | cons await awaits ih =>
    have hguard : ¬ ((!await.resumeMethod.isNull && await.resumeMethod ≠ method) = true) ↔
        ResumesIn method await := by
      rw [ResumesIn, Bool.and_eq_true, Bool.not_eq_true', decide_eq_true_eq,
        Classical.not_and_iff_not_or_not, Bool.not_eq_false, Classical.not_not]
    rw [List.forall_mem_cons, ← hguard, ← ih]
    constructor
    · rintro ⟨form, hform⟩
      obtain ⟨hresumes, hform⟩ := guard_eq_ok_iff.mp hform
      obtain ⟨_, _, hform⟩ := bind_eq_ok_iff.mp hform
      obtain ⟨rest, hrest, _⟩ := bind_eq_ok_iff.mp hform
      exact ⟨hresumes, rest, hrest⟩
    · rintro ⟨hresumes, rest, hrest⟩
      obtain ⟨row, hrow⟩ : ∃ row, Compressed.encodeUInt method.row.toNat = .ok row := by
        refine Compressed.exists_encodeUInt ?_
        have hrow := method.row_lt
        unfold Compressed.maxUInt
        omega
      exact ⟨_, guard_eq_ok_iff.mpr ⟨hresumes, bind_eq_ok_iff.mpr ⟨row, hrow,
        bind_eq_ok_iff.mpr ⟨rest, hrest, rfl⟩⟩⟩⟩

/-- The stepping of a method can be stored unless its handler is at the last offset of all, which
leaves no number to stand for it. -/
theorem exists_encodeStepping_iff {stepping : AsyncStepping} {method : Token} :
    (∃ blob, encodeStepping stepping method = .ok blob) ↔
      method.isTable .methodDef = true ∧ stepping.catchHandler ≠ some 0xFFFFFFFF ∧
        ∀ await ∈ stepping.awaits, ResumesIn method await := by
  rw [← exists_encodeAwaits_iff]
  constructor
  · rintro ⟨blob, hblob⟩
    obtain ⟨hmethod, handler, form, hhandler, hform, _⟩ := encodeStepping_eq hblob
    refine ⟨hmethod, ?_, form, hform⟩
    rw [← hhandler]
    split
    · exact nofun
    · next hnonzero =>
      intro hlast
      have hhandler : handler - 1 + 1 = 0xFFFFFFFF + 1 := congrArg (· + 1) (Option.some.inj hlast)
      rw [UInt32.sub_add_cancel] at hhandler
      exact hnonzero hhandler
  · rintro ⟨hmethod, hhandler, form, hform⟩
    have hguard : ¬ ((!method.isTable .methodDef) = true) := by simp [hmethod]
    cases hoffset : stepping.catchHandler with
    | none =>
      refine ⟨Bytes.le32 0 ++ form, guard_eq_ok_iff.mpr ⟨hguard, ?_⟩⟩
      rw [hoffset]
      exact bind_eq_ok_iff.mpr ⟨0, rfl, bind_eq_ok_iff.mpr ⟨form, hform, rfl⟩⟩
    | some offset =>
      rw [hoffset] at hhandler
      refine ⟨Bytes.le32 (offset + 1) ++ form, guard_eq_ok_iff.mpr ⟨hguard, ?_⟩⟩
      rw [hoffset]
      refine guard_eq_ok_iff.mpr ⟨fun hlast => hhandler (congrArg some hlast), ?_⟩
      exact bind_eq_ok_iff.mpr ⟨offset + 1, rfl, bind_eq_ok_iff.mpr ⟨form, hform, rfl⟩⟩

/-- Hoisted locals are read from blobs of eight bytes for each of them, and from no others. -/
theorem decode_hoisted_cases (blob : Bytes) :
    blob.size % 8 = 0 ∧ (∃ scopes, decode .hoistedLocalScopes blob =
      .ok (.hoistedLocalScopes scopes)) ∨
    blob.size % 8 ≠ 0 ∧ decode .hoistedLocalScopes blob = .error .outOfBounds := by
  have hhoisted : readHoisted.IsFixed 8 :=
    isFixed_le32.bind fun start => isFixed_le32.bind_pure (HoistedScope.mk start)
  obtain ⟨hdivides, scopes, hscopes⟩ | ⟨hdivides, stop, hstop⟩ :=
    hhoisted.items_cases (by decide) (Nat.zero_le blob.size)
  · refine .inl ⟨hdivides, scopes, ?_⟩
    rw [decode, read, eval, evalAt, runAt_bind, hscopes]
    rfl
  · refine .inr ⟨hdivides, ?_⟩
    rw [decode, read, eval, evalAt, runAt_bind, hstop]

/-- What is stored about the state machine of a method is read back. The stepping of a method is
stored if it names a method, if its awaits resume there, and if its handler has an offset before the
last one; the same handler and the same awaits are read, each with the method to resume in. Hoisted
locals are read back in order, and exactly the bytes that do not make up a number of them are
refused for being too few. -/
theorem stateMachine_read_back :
    (∀ stepping method,
      ((∃ blob, encodeStepping stepping method = .ok blob) ↔
        method.isTable .methodDef = true ∧ stepping.catchHandler ≠ some 0xFFFFFFFF ∧
          ∀ await ∈ stepping.awaits, ResumesIn method await) ∧
      ∀ blob, encodeStepping stepping method = .ok blob →
        decode .asyncStepping blob = .ok (.asyncStepping
          { catchHandler := stepping.catchHandler
            awaits := stepping.awaits.map fun await => { await with resumeMethod := method } })) ∧
    (∀ scopes,
      decode .hoistedLocalScopes (encodeHoisted scopes) = .ok (.hoistedLocalScopes scopes)) ∧
    ∀ blob, decode .hoistedLocalScopes blob = .error .outOfBounds ↔ blob.size % 8 ≠ 0 := by
  refine ⟨fun stepping method => ⟨exists_encodeStepping_iff, fun blob hblob => ?_⟩,
    decode_encodeHoisted, fun blob => ?_⟩
  · exact decode_encodeStepping hblob
  · obtain ⟨hdivides, scopes, hscopes⟩ | ⟨hdivides, hrefused⟩ := decode_hoisted_cases blob
    · rw [hscopes]
      exact iff_of_false nofun (not_not_intro hdivides)
    · exact iff_of_true hrefused hdivides

/-- A handler at the start of the code, two awaits of which one does not say where it resumes, and
the last method that a token can name; and five bytes, which are no number of hoisted locals. -/
theorem stateMachine_read_back_twoAwaits : ∃ blob,
    encodeStepping ⟨some 0, [⟨0x10, 0x2C, ⟨0⟩⟩, ⟨0xFFFFFFFF, 0, ⟨0x06FFFFFF⟩⟩]⟩ ⟨0x06FFFFFF⟩ =
      .ok blob ∧
    decode .asyncStepping blob = .ok (.asyncStepping
      ⟨some 0, [⟨0x10, 0x2C, ⟨0x06FFFFFF⟩⟩, ⟨0xFFFFFFFF, 0, ⟨0x06FFFFFF⟩⟩]⟩) ∧
    decode .hoistedLocalScopes #[0, 0, 0, 0, 1] = .error .outOfBounds := by
  obtain ⟨hstepping, _, hrefused⟩ := stateMachine_read_back
  obtain ⟨hstored, hread⟩ := hstepping
    ⟨some 0, [⟨0x10, 0x2C, ⟨0⟩⟩, ⟨0xFFFFFFFF, 0, ⟨0x06FFFFFF⟩⟩]⟩ ⟨0x06FFFFFF⟩
  obtain ⟨blob, hblob⟩ := hstored.mpr ⟨by decide, by decide, by
    simp only [List.forall_mem_cons]
    exact ⟨.inl rfl, .inr rfl, nofun⟩⟩
  exact ⟨blob, hblob, hread blob hblob, (hrefused _).mpr (by decide)⟩

end CustomInfo

end PortablePdb
