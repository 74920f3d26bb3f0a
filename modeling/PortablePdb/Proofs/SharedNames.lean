import PortablePdb.Proofs.Interning
import PortablePdb.Proofs.Names

namespace PortablePdb

open BlobHeap

/-- The names between the separators of a path. -/
def DocumentName.parts (path : String) : List String :=
  (Text.split separator path.toList).map String.ofList

/-- Names that a form refers to are below 512 megabytes. -/
theorem RefersTo.size_lt {lead data form : Bytes} {names : List String}
    (hform : RefersTo lead data names form) :
    ∀ name ∈ names, (Bytes.ofText name).size < 0x20000000 := by
  induction names generalizing form with
  | nil => exact nofun
  | cons first names ih =>
    obtain ⟨index, _, rest, ⟨length, hlength, _⟩, _, hrest, _⟩ := hform
    have hle := Compressed.le_of_encodeUInt hlength
    unfold Compressed.maxUInt at hle
    intro name hname
    obtain rfl | hname := List.mem_cons.mp hname
    · omega
    · exact ih hrest name hname

namespace BlobHeap

/-- A short blob is refused only by a heap of 512 megabytes. -/
theorem Builder.yields_add_short {builder : Builder} (hsound : builder.IsSound) {value : Bytes}
    (hvalue : value.size < 0x20000000) :
    Yields (fun index after => after.IsSound ∧ HasBlob after.data index value)
      (fun _ after => 0x20000000 ≤ after.size) (add value) builder := by
  refine .of_run (fun index after hadd => ?_) fun error after hadd => ?_
  · obtain ⟨hafter, _, hblob⟩ := run_add hadd hsound
    exact ⟨hafter, hblob⟩
  · obtain ⟨rfl, _⟩ := run_add_error hadd
    by_contra hroom
    have hshort : after.data.size < 0x100000000 := by
      unfold size at hroom
      omega
    obtain ⟨index, next, hok⟩ := exists_add hshort (Nat.le_of_lt_succ hvalue)
    rw [hok] at hadd
    cases hadd

theorem failsPastForms_le_size : FailsPastForms fun _ builder => 0x20000000 ≤ builder.size :=
  fun _ _ _ _ hblob herror => hblob.le_size herror

theorem addsUnless_le_size {value : Bytes} (hvalue : value.size < 0x20000000) :
    AddsUnless (fun _ builder => 0x20000000 ≤ builder.size) value :=
  fun _ hsound => Builder.yields_add_short hsound hvalue

/-- An action adds no more than some bytes to a heap, whether it succeeds or not. -/
def AddsAtMost {α : Type} (bytes : Nat) (action : EStateM Error Builder α) : Prop :=
  Confined (fun before after : Builder => after.size ≤ before.size + bytes) (fun _ => True) action

theorem AddsAtMost.pure {α : Type} (a : α) : AddsAtMost 0 (Pure.pure a) :=
  fun builder => Nat.le_refl builder.size

theorem AddsAtMost.throw {α : Type} (bytes : Nat) (error : Error) :
    AddsAtMost bytes (MonadExcept.throw error : EStateM Error Builder α) :=
  fun builder => ⟨Nat.le_add_right builder.size bytes, trivial⟩

theorem AddsAtMost.bind {α β : Type} {bytes more : Nat} {action : EStateM Error Builder α}
    {rest : α → EStateM Error Builder β} (haction : AddsAtMost bytes action)
    (hrest : ∀ a, AddsAtMost more (rest a)) : AddsAtMost (bytes + more) (action >>= rest) := by
  intro builder
  cases hrun : (action >>= rest).run builder with
  | ok b after =>
    obtain ⟨a, middle, hfirst, hlast⟩ := run_bind_eq_ok_iff.mp hrun
    have hmiddle := haction.moves_of_ok hfirst
    have hafter := (hrest a).moves_of_ok hlast
    change after.size ≤ builder.size + (bytes + more)
    omega
  | error error after =>
    refine ⟨?_, trivial⟩
    obtain hfirst | ⟨a, middle, hfirst, hlast⟩ := run_bind_eq_error_iff.mp hrun
    · have hafter := (haction.of_error hfirst).1
      omega
    · have hmiddle := haction.moves_of_ok hfirst
      have hafter := ((hrest a).of_error hlast).1
      omega

theorem AddsAtMost.bind_pure {α β : Type} {bytes : Nat} {action : EStateM Error Builder α}
    {f : α → β} (haction : AddsAtMost bytes action) :
    AddsAtMost bytes (action >>= fun a => Pure.pure (f a)) :=
  haction.bind fun a => .pure (f a)

/-- A blob takes its bytes and those of its length. -/
theorem Builder.addsAtMost_add (value : Bytes) : AddsAtMost (value.size + 4) (add value) := by
  intro builder
  cases hadd : (add value).run builder with
  | ok index after =>
    change after.data.size ≤ builder.data.size + (value.size + 4)
    obtain ⟨_, _, rfl⟩ | ⟨_, _, rfl⟩ | ⟨_, _, _, form, hform, rfl⟩ := run_add_cases hadd
    · omega
    · omega
    · have hsize := Compressed.size_encodeUInt hform
      have hfour : Compressed.size value.size ≤ 4 := by
        unfold Compressed.size
        split <;> (try split) <;> omega
      simp only [Array.size_append]
      omega
  | error error after =>
    obtain ⟨rfl, _⟩ := run_add_error hadd
    exact ⟨Nat.le_add_right _ _, trivial⟩

/-- As many bytes as values take at most in a heap, each with its length. -/
def spaceFor (values : List Bytes) : Nat :=
  values.foldr (fun value bytes => value.size + 4 + bytes) 0

theorem spaceFor_append (first second : List Bytes) :
    spaceFor (first ++ second) = spaceFor first + spaceFor second := by
  induction first with
  | nil => simp [spaceFor]
  | cons value first ih =>
    simp only [spaceFor, List.cons_append, List.foldr_cons] at ih ⊢
    omega

end BlobHeap

namespace DocumentName

theorem yields_encode_short {builder : Builder} (hsound : builder.IsSound) {path : String}
    (hshort : ∀ part ∈ parts path, (Bytes.ofText part).size < 0x20000000) :
    Yields (fun _ after => after.IsSound) (fun _ after => 0x20000000 ≤ after.size) (encode path)
      builder := by
  refine yields_encode_of failsPastForms_le_size (fun part hpart => ?_) hsound
  exact addsUnless_le_size (hshort _ (List.mem_map_of_mem hpart))

theorem addsAtMost_encode (path : String) :
    AddsAtMost (spaceFor ((parts path).map Bytes.ofText)) (encode path) := by
  have hparts (chars : List (List Char)) :
      AddsAtMost (spaceFor ((chars.map String.ofList).map Bytes.ofText)) (encodeParts chars) := by
    induction chars with
    | nil => exact .pure []
    | cons part chars ih =>
      refine (Builder.addsAtMost_add _).bind fun index => ?_
      cases Compressed.encodeUInt index.toNat with
      | ok form => exact ih.bind_pure
      | error error => exact .throw _ error
  exact (hparts _).bind_pure

end DocumentName

namespace Imports

theorem yields_encode_short {builder : Builder} (hsound : builder.IsSound) {names : List String}
    (hshort : ∀ name ∈ names, (Bytes.ofText name).size < 0x20000000) :
    Yields (fun _ after => after.IsSound) (fun _ after => 0x20000000 ≤ after.size) (encode names)
      builder :=
  yields_encode_of failsPastForms_le_size
    (fun name hname => addsUnless_le_size (hshort name hname)) hsound

theorem addsAtMost_encode (names : List String) :
    AddsAtMost (spaceFor (names.map Bytes.ofText)) (encode names) := by
  induction names with
  | nil => exact .pure #[]
  | cons name names ih =>
    refine (Builder.addsAtMost_add _).bind fun index => ?_
    cases Compressed.encodeUInt index.toNat with
    | ok form => exact ih.bind_pure
    | error error => exact .throw _ error

end Imports

namespace BlobHeap

/-- An operation that adds to a heap. -/
inductive Operation where
  | addBlob (value : Bytes)
  | addPath (path : String)
  | addImports (names : List String)

/-- What an operation answers when it succeeds. -/
inductive Answer where
  | index (position : UInt32)
  /-- A blob that refers to the heap and is not in it. -/
  | form (blob : Bytes)
  deriving DecidableEq

/-- Carries out an operation. -/
def Operation.run : Operation → EStateM Error Builder Answer
  | addBlob value => return .index (← Builder.add value)
  | addPath path => return .form (← DocumentName.encode path)
  | addImports names => return .form (← Imports.encode names)

/-- The blobs that an operation adds unless the heap has them. -/
def Operation.parts : Operation → List Bytes
  | addBlob value => [value]
  | addPath path => (DocumentName.parts path).map Bytes.ofText
  | addImports names => names.map Bytes.ofText

/-- An operation with what came of it. -/
structure Event where
  operation : Operation
  outcome : Except Error Answer

/-- What comes of an operation, and the heap that it leaves. -/
def Operation.step (operation : Operation) (builder : Builder) : Event × Builder :=
  match operation.run.run builder with
  | .ok answer after => (⟨operation, .ok answer⟩, after)
  | .error error after => (⟨operation, .error error⟩, after)

/-- Carries out operations one after the other. One that fails does not stop those after it. -/
def perform : List Operation → Builder → List Event × Builder
  | [], builder => ([], builder)
  | operation :: rest, builder =>
    let (event, middle) := operation.step builder
    let (events, after) := perform rest middle
    (event :: events, after)

/-- What comes of operations on a heap with the empty blob only. -/
def history (operations : List Operation) : List Event :=
  (perform operations Builder.empty).1

/-- The heap after some operations. -/
def ofOperations (operations : List Operation) : Builder :=
  (perform operations Builder.empty).2

/-- The finished heap after some operations. -/
def finished (operations : List Operation) : Bytes :=
  (ofOperations operations).toBytes

theorem Operation.step_cases (operation : Operation) (builder : Builder) :
    (∃ answer after, operation.run.run builder = .ok answer after ∧
      operation.step builder = (⟨operation, .ok answer⟩, after)) ∨
    ∃ error after, operation.run.run builder = .error error after ∧
      operation.step builder = (⟨operation, .error error⟩, after) := by
  unfold step
  cases operation.run.run builder with
  | ok answer after => exact .inl ⟨answer, after, rfl, rfl⟩
  | error error after => exact .inr ⟨error, after, rfl, rfl⟩

/-- What came of each operation is in its place. -/
theorem map_operation_perform (operations : List Operation) (builder : Builder) :
    (perform operations builder).1.map (·.operation) = operations := by
  induction operations generalizing builder with
  | nil => rfl
  | cons operation operations ih =>
    have hfirst : (operation.step builder).1.operation = operation := by
      obtain ⟨_, _, _, hstep⟩ | ⟨_, _, _, hstep⟩ := operation.step_cases builder <;> rw [hstep]
    simp only [perform, List.map_cons, hfirst, ih]

theorem exists_event {operation : Operation} {operations : List Operation}
    (hmem : operation ∈ operations) : ∃ outcome, ⟨operation, outcome⟩ ∈ history operations := by
  rw [← map_operation_perform operations Builder.empty] at hmem
  obtain ⟨event, hevent, rfl⟩ := List.mem_map.mp hmem
  exact ⟨event.outcome, hevent⟩

/-- Whether a heap has what an operation answered. -/
def Operation.Holds (data : Bytes) : Operation → Answer → Prop
  | addBlob value, .index position => HasBlob data position value
  | addPath path, .form blob => DocumentName.HasPath data blob path
  | addImports names, .form blob => RefersTo #[1] data names blob
  | _, _ => False

theorem Operation.Holds.grow {data : Bytes} {operation : Operation} {answer : Answer}
    (hholds : operation.Holds data answer) (more : Bytes) :
    operation.Holds (data ++ more) answer := by
  cases operation <;> cases answer
  case addBlob.index => exact HasBlob.grow hholds more
  case addPath.form => exact DocumentName.HasPath.grow hholds more
  case addImports.form => exact RefersTo.grow hholds more
  all_goals exact hholds

/-- Whether a heap bears out what came of an operation: it has what was answered, and something was
refused only for a part of 512 megabytes, or because the heap has that size itself. -/
def Event.Stands (builder : Builder) : Event → Prop
  | ⟨operation, .ok answer⟩ => operation.Holds builder.data answer
  | ⟨operation, .error _⟩ =>
    0x20000000 ≤ builder.size ∨ ∃ part ∈ operation.parts, 0x20000000 ≤ part.size

theorem Event.Stands.grow {builder after : Builder} {event : Event}
    (hstands : event.Stands builder) (hgrow : ∃ more, after.data = builder.data ++ more) :
    event.Stands after := by
  obtain ⟨more, hmore⟩ := hgrow
  obtain ⟨operation, _ | answer⟩ := event
  · obtain hfull | hpart := hstands
    · refine .inl (Nat.le_trans hfull ?_)
      rw [Builder.size, Builder.size, hmore, Array.size_append]
      omega
    · exact .inr hpart
  · change operation.Holds after.data answer
    rw [hmore]
    exact Operation.Holds.grow hstands more

theorem Operation.run_ok {operation : Operation} {builder after : Builder} {answer : Answer}
    (hrun : operation.run.run builder = .ok answer after) (hsound : builder.IsSound) :
    after.IsSound ∧ (∃ more, after.data = builder.data ++ more) ∧
      operation.Holds after.data answer := by
  cases operation with
  | addBlob value =>
    obtain ⟨index, _, hadd, hrun⟩ := run_bind_eq_ok_iff.mp hrun
    obtain ⟨rfl, rfl⟩ := run_pure_eq_ok_iff.mp hrun
    exact Builder.run_add hadd hsound
  | addPath path =>
    obtain ⟨blob, _, hencode, hrun⟩ := run_bind_eq_ok_iff.mp hrun
    obtain ⟨rfl, rfl⟩ := run_pure_eq_ok_iff.mp hrun
    exact DocumentName.run_encode hencode hsound
  | addImports names =>
    obtain ⟨blob, _, hencode, hrun⟩ := run_bind_eq_ok_iff.mp hrun
    obtain ⟨rfl, rfl⟩ := run_pure_eq_ok_iff.mp hrun
    exact Imports.run_encode hencode hsound

theorem Operation.confined_run (operation : Operation) :
    Confined Builder.GrowsTo (fun error : Error => error.isTooLarge = true) operation.run := by
  cases operation with
  | addBlob value => exact (Builder.confined_add value).bind fun _ => .pure _
  | addPath path => exact (DocumentName.confined_encode path).bind fun _ => .pure _
  | addImports names => exact (Imports.confined_encode names).bind fun _ => .pure _

/-- An operation whose parts are all short is refused only by a heap of 512 megabytes. -/
theorem Operation.run_error {operation : Operation} {builder after : Builder} {error : Error}
    (hrun : operation.run.run builder = .error error after) (hsound : builder.IsSound)
    (hshort : ∀ part ∈ operation.parts, part.size < 0x20000000) : 0x20000000 ≤ after.size := by
  cases operation with
  | addBlob value =>
    have hadd := run_bind_pure_eq_error_iff.mp hrun
    exact (Builder.yields_add_short hsound (hshort value (by simp [parts]))).of_error hadd
  | addPath path =>
    have hencode := run_bind_pure_eq_error_iff.mp hrun
    exact (DocumentName.yields_encode_short hsound
      (List.forall_mem_map.mp hshort)).of_error hencode
  | addImports names =>
    have hencode := run_bind_pure_eq_error_iff.mp hrun
    exact (Imports.yields_encode_short hsound (List.forall_mem_map.mp hshort)).of_error hencode

/-- A heap bears out what comes of one operation, keeps what it had, and stays sound. -/
theorem Operation.step_stands {builder : Builder} (hsound : builder.IsSound)
    (operation : Operation) :
    (operation.step builder).2.IsSound ∧
      (∃ more, (operation.step builder).2.data = builder.data ++ more) ∧
      (operation.step builder).1.Stands (operation.step builder).2 := by
  obtain ⟨answer, after, hrun, hstep⟩ | ⟨error, after, hrun, hstep⟩ :=
    operation.step_cases builder
  · rw [hstep]
    exact run_ok hrun hsound
  · obtain ⟨hafter, hmore⟩ := (operation.confined_run.of_error hrun).1 hsound
    rw [hstep]
    refine ⟨hafter, hmore, ?_⟩
    by_cases hshort : ∀ part ∈ operation.parts, part.size < 0x20000000
    · exact .inl (run_error hrun hsound hshort)
    · right
      push Not at hshort
      exact hshort

/-- A heap bears out all that came of the operations that were carried out on it. -/
theorem perform_stands {builder : Builder} (hsound : builder.IsSound)
    (operations : List Operation) :
    (perform operations builder).2.IsSound ∧
      (∃ more, (perform operations builder).2.data = builder.data ++ more) ∧
      ∀ event ∈ (perform operations builder).1, event.Stands (perform operations builder).2 := by
  induction operations generalizing builder with
  | nil => exact ⟨hsound, ⟨#[], by simp [perform]⟩, by simp [perform]⟩
  | cons operation operations ih =>
    obtain ⟨hmiddle, ⟨more, hmore⟩, hfirst⟩ := operation.step_stands hsound
    obtain ⟨hafter, ⟨later, hlater⟩, hrest⟩ := ih hmiddle
    refine ⟨hafter, ⟨more ++ later, ?_⟩, fun event hevent => ?_⟩
    · rw [← Array.append_assoc, ← hmore]
      exact hlater
    · obtain rfl | hevent := List.mem_cons.mp hevent
      · exact hfirst.grow ⟨later, hlater⟩
      · exact hrest event hevent

theorem stands_of_mem_history {operations : List Operation} {event : Event}
    (hevent : event ∈ history operations) : event.Stands (ofOperations operations) :=
  (perform_stands Builder.isSound_empty operations).2.2 event hevent

/-- The finished heap is one that opens, and it has all that the operations added. -/
theorem exists_finished (operations : List Operation) :
    ∃ more, finished operations = (ofOperations operations).data ++ more ∧
      ofBytes (finished operations) = .ok ⟨finished operations⟩ := by
  have hsound := (perform_stands Builder.isSound_empty operations).1
  exact ⟨_, rfl, hsound.ofBytes_toBytes⟩

theorem Operation.addsAtMost_run (operation : Operation) :
    AddsAtMost (spaceFor operation.parts) operation.run := by
  cases operation with
  | addBlob value => exact (Builder.addsAtMost_add value).bind_pure
  | addPath path => exact (DocumentName.addsAtMost_encode path).bind_pure
  | addImports names => exact (Imports.addsAtMost_encode names).bind_pure

theorem size_perform_le (operations : List Operation) (builder : Builder) :
    (perform operations builder).2.size ≤
      builder.size + spaceFor (operations.flatMap Operation.parts) := by
  induction operations generalizing builder with
  | nil => exact Nat.le_refl builder.size
  | cons operation operations ih =>
    have hstep : (operation.step builder).2.size ≤ builder.size + spaceFor operation.parts := by
      obtain ⟨_, _, hrun, hstep⟩ | ⟨_, _, hrun, hstep⟩ := operation.step_cases builder
      · rw [hstep]
        exact operation.addsAtMost_run.moves_of_ok hrun
      · rw [hstep]
        exact (operation.addsAtMost_run.of_error hrun).1
    have hrest := ih (operation.step builder).2
    rw [List.flatMap_cons, spaceFor_append]
    change (perform operations (operation.step builder).2).2.size ≤ _
    omega

/-- The parts of the operations bound the size of the heap. -/
theorem size_ofOperations_le (operations : List Operation) :
    (ofOperations operations).size ≤ 1 + spaceFor (operations.flatMap Operation.parts) :=
  size_perform_le operations Builder.empty

/-- What was not refused for its parts or for the size of the heap was answered. -/
theorem Event.Stands.exists_answer {builder : Builder} {operation : Operation}
    {outcome : Except Error Answer} (hstands : Event.Stands builder ⟨operation, outcome⟩)
    (hroom : builder.size < 0x20000000)
    (hshort : ∀ part ∈ operation.parts, part.size < 0x20000000) :
    ∃ answer, outcome = .ok answer ∧ operation.Holds builder.data answer := by
  cases outcome with
  | ok answer => exact ⟨answer, rfl, hstands⟩
  | error error =>
    obtain hfull | ⟨part, hpart, hlong⟩ := hstands
    · omega
    · have hlt := hshort part hpart
      omega

/-- A path, a blob, a list of imports and another path, all with a name in common. -/
def sharingOperations : List Operation :=
  [.addPath "src/Main.cs", .addBlob (Bytes.ofText "src"), .addImports ["System", "", "src"],
    .addPath "/src//"]

theorem size_sharingOperations_lt : (ofOperations sharingOperations).size < 0x20000000 :=
  lt_of_le_of_lt (size_ofOperations_le sharingOperations) (by decide)

/-- Every path that a heap took, in whatever order paths, lists of imports and other blobs were
added, is read back from the finished heap as it was. As long as the heap stays below 512 megabytes,
it takes every path whose parts do. -/
theorem paths_read_back (operations : List Operation) :
    (history operations).map (·.operation) = operations ∧
      ∀ path outcome, ⟨.addPath path, outcome⟩ ∈ history operations →
        (∀ blob, outcome = .ok (.form blob) →
          (do DocumentName.decode (← ofBytes (finished operations)) blob) = .ok path) ∧
        ((ofOperations operations).size < 0x20000000 →
          ((∃ blob, outcome = .ok (.form blob)) ↔
            ∀ part ∈ DocumentName.parts path, (Bytes.ofText part).size < 0x20000000)) := by
  refine ⟨map_operation_perform operations _, fun path outcome hevent => ?_⟩
  have hstands := stands_of_mem_history hevent
  obtain ⟨more, hfinished, hopen⟩ := exists_finished operations
  refine ⟨?_, fun hroom => ⟨?_, fun hshort => ?_⟩⟩
  · rintro blob rfl
    have hpath : DocumentName.HasPath (finished operations) blob path :=
      hfinished ▸ DocumentName.HasPath.grow hstands more
    exact bind_eq_ok_iff.mpr ⟨_, hopen, hpath.decode_eq⟩
  · rintro ⟨blob, rfl⟩
    obtain ⟨form, _, hform⟩ := hstands
    exact hform.size_lt
  · obtain ⟨_ | blob, houtcome, hholds⟩ :=
      hstands.exists_answer hroom (List.forall_mem_map.mpr hshort)
    · exact hholds.elim
    · exact ⟨blob, houtcome⟩

/-- A path with empty parts at both ends, after others that have its only name too. -/
theorem path_with_empty_parts_read_back :
    ∃ blob, ⟨.addPath "/src//", .ok (.form blob)⟩ ∈ history sharingOperations ∧
      (do DocumentName.decode (← ofBytes (finished sharingOperations)) blob) = .ok "/src//" := by
  obtain ⟨outcome, hevent⟩ : ∃ outcome, ⟨.addPath "/src//", outcome⟩ ∈ history sharingOperations :=
    exists_event (by simp [sharingOperations])
  obtain ⟨hdecode, haccepts⟩ := (paths_read_back sharingOperations).2 _ _ hevent
  obtain ⟨blob, rfl⟩ := (haccepts size_sharingOperations_lt).mpr (by decide)
  exact ⟨blob, hevent, hdecode blob rfl⟩

/-- Every list of imports that a heap took, in whatever order lists, paths and other blobs were
added, is read back from the finished heap: one import for each namespace, in the same order. As
long as the heap stays below 512 megabytes, it takes every list whose names do. -/
theorem imports_read_back (operations : List Operation) :
    (history operations).map (·.operation) = operations ∧
      ∀ names outcome, ⟨.addImports names, outcome⟩ ∈ history operations →
        (∀ blob, outcome = .ok (.form blob) →
          (do Imports.decode (← ofBytes (finished operations)) blob) =
            .ok (names.map .importNamespace)) ∧
        ((ofOperations operations).size < 0x20000000 →
          ((∃ blob, outcome = .ok (.form blob)) ↔
            ∀ name ∈ names, (Bytes.ofText name).size < 0x20000000)) := by
  refine ⟨map_operation_perform operations _, fun names outcome hevent => ?_⟩
  have hstands := stands_of_mem_history hevent
  obtain ⟨more, hfinished, hopen⟩ := exists_finished operations
  refine ⟨?_, fun hroom => ⟨?_, fun hshort => ?_⟩⟩
  · rintro blob rfl
    have hnames : RefersTo #[1] (finished operations) names blob :=
      hfinished ▸ RefersTo.grow hstands more
    exact bind_eq_ok_iff.mpr ⟨_, hopen, Imports.decode_eq hnames⟩
  · rintro ⟨blob, rfl⟩
    exact RefersTo.size_lt hstands
  · obtain ⟨_ | blob, houtcome, hholds⟩ :=
      hstands.exists_answer hroom (List.forall_mem_map.mpr hshort)
    · exact hholds.elim
    · exact ⟨blob, houtcome⟩

/-- A list with the empty namespace, between paths that have one of its names too. -/
theorem imports_with_empty_name_read_back :
    ∃ blob, ⟨.addImports ["System", "", "src"], .ok (.form blob)⟩ ∈ history sharingOperations ∧
      (do Imports.decode (← ofBytes (finished sharingOperations)) blob) =
        .ok [.importNamespace "System", .importNamespace "", .importNamespace "src"] := by
  obtain ⟨outcome, hevent⟩ : ∃ outcome,
      ⟨.addImports ["System", "", "src"], outcome⟩ ∈ history sharingOperations :=
    exists_event (by simp [sharingOperations])
  obtain ⟨hdecode, haccepts⟩ := (imports_read_back sharingOperations).2 _ _ hevent
  obtain ⟨blob, rfl⟩ := (haccepts size_sharingOperations_lt).mpr (by decide)
  exact ⟨blob, hevent, hdecode blob rfl⟩

end BlobHeap

end PortablePdb
