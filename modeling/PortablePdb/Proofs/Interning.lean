import PortablePdb.Proofs.Growth
import PortablePdb.Proofs.Room

namespace PortablePdb

/-- A kind of heap: how it is built by adding values, and how it is read once it is finished. -/
structure HeapFormat (Value Builder : Type) where
  empty : Builder
  add : Value → EStateM Error Builder UInt32
  toBytes : Builder → Bytes
  /-- Opens a finished heap and reads the value with an index. -/
  valueAt : Bytes → Nat → Except Error Value
  /-- The value that has index zero in every heap. -/
  nothing : Value
  /-- Whether a heap can hold a value at all. -/
  HasForm : Value → Prop

/-- The heap of blobs. The length of a blob has to have a compressed form. -/
def BlobHeap.format : HeapFormat Bytes BlobHeap.Builder where
  empty := Builder.empty
  add := Builder.add
  toBytes := Builder.toBytes
  valueAt data index := do (← ofBytes data).blobAt index
  nothing := #[]
  HasForm value := value.size ≤ Compressed.maxUInt

/-- The heap of strings. A string must not contain a zero byte. -/
def StringHeap.format : HeapFormat String StringHeap.Builder where
  empty := Builder.empty
  add := Builder.add
  toBytes := Builder.toBytes
  valueAt data index := do (← ofBytes data).stringAt index
  nothing := ""
  HasForm value := 0 ∉ Bytes.ofText value

/-- The heap of identifiers. -/
def GuidHeap.format : HeapFormat Guid GuidHeap.Builder where
  empty := Builder.empty
  add := Builder.add
  toBytes := Builder.toBytes
  valueAt data index := do (← ofBytes data).guidAt index
  nothing := Guid.nil
  HasForm _ := True

namespace HeapFormat

variable {Value Builder : Type} (format : HeapFormat Value Builder)

/-- What comes of adding a value, and the heap that it leaves. -/
def step (value : Value) (builder : Builder) : Except Error UInt32 × Builder :=
  match (format.add value).run builder with
  | .ok index after => (.ok index, after)
  | .error error after => (.error error, after)

/-- Adds values one after the other. One that is refused does not stop those after it. -/
def addAll : List Value → Builder → List (Value × Except Error UInt32) × Builder
  | [], builder => ([], builder)
  | value :: rest, builder =>
    let (outcome, middle) := format.step value builder
    let (outcomes, after) := addAll rest middle
    ((value, outcome) :: outcomes, after)

/-- What comes of adding values to a heap without values. -/
def history (values : List Value) : List (Value × Except Error UInt32) :=
  (format.addAll values format.empty).1

/-- The heap after some values were added. -/
def ofValues (values : List Value) : Builder :=
  (format.addAll values format.empty).2

/-- The bytes of the finished heap after some values were added. -/
def finished (values : List Value) : Bytes :=
  format.toBytes (format.ofValues values)

theorem addAll_append (first second : List Value) (builder : Builder) :
    format.addAll (first ++ second) builder =
      ((format.addAll first builder).1 ++ (format.addAll second (format.addAll first builder).2).1,
        (format.addAll second (format.addAll first builder).2).2) := by
  induction first generalizing builder with
  | nil => rfl
  | cons value first ih => simp only [List.cons_append, addAll, ih]

theorem step_eq_ok_iff {value : Value} {builder : Builder} {index : UInt32} :
    (format.step value builder).1 = .ok index ↔
      ∃ after, (format.add value).run builder = .ok index after := by
  unfold step
  cases (format.add value).run builder <;> simp

theorem step_eq_error_iff {value : Value} {builder : Builder} {error : Error} :
    (format.step value builder).1 = .error error ↔
      (format.add value).run builder = .error error (format.step value builder).2 := by
  unfold step
  cases (format.add value).run builder <;> simp

/-- Values and indices determine each other, through the finished heap as well. -/
structure IsInterning : Prop where
  nothing_at : ∀ values, format.valueAt (format.finished values) 0 = .ok format.nothing
  valueAt_eq : ∀ values value index, (value, .ok index) ∈ format.history values →
    format.valueAt (format.finished values) index.toNat = .ok value
  index_eq_zero_iff : ∀ values value index, (value, .ok index) ∈ format.history values →
    (index = 0 ↔ value = format.nothing)
  index_eq_iff : ∀ values first second firstIndex secondIndex,
    (first, .ok firstIndex) ∈ format.history values →
    (second, .ok secondIndex) ∈ format.history values →
    (firstIndex = secondIndex ↔ first = second)
  /-- Below 4 gigabytes, only values without a form are refused. -/
  accepts_iff : ∀ values value, (format.finished values).size < 0x100000000 →
    ((∃ index, (format.step value (format.ofValues values)).1 = .ok index) ↔ format.HasForm value)
  /-- Without a value that is refused, the heap and what comes of all others are the same. -/
  refused : ∀ earlier value later error,
    (format.step value (format.ofValues earlier)).1 = .error error →
    format.finished (earlier ++ value :: later) = format.finished (earlier ++ later) ∧
      ∃ outcomes, format.history (earlier ++ later) = format.history earlier ++ outcomes ∧
        format.history (earlier ++ value :: later) =
          format.history earlier ++ (value, .error error) :: outcomes

variable [BEq Value] [Hashable Value]

/-- What adding a value makes of the indices that a heap looks up. -/
def AddsTo (lookup after : Std.HashMap Value UInt32) (value : Value) (index : UInt32) : Prop :=
  value = format.nothing ∧ index = 0 ∧ after = lookup ∨
  value ≠ format.nothing ∧ lookup[value]? = some index ∧ after = lookup ∨
  value ≠ format.nothing ∧ lookup[value]? = none ∧ after = lookup.insert value index

/-- The index of a value that a heap has. -/
def IsIndexOf (lookup : Std.HashMap Value UInt32) (value : Value) (index : UInt32) : Prop :=
  value = format.nothing ∧ index = 0 ∨ value ≠ format.nothing ∧ lookup[value]? = some index

variable {format} {lookup after : Std.HashMap Value UInt32} {value : Value} {index : UInt32}

theorem IsIndexOf.unique {other : UInt32} (hindex : format.IsIndexOf lookup value index)
    (hother : format.IsIndexOf lookup value other) : index = other := by
  obtain ⟨hvalue, rfl⟩ | ⟨hvalue, hindex⟩ := hindex
  · obtain ⟨_, rfl⟩ | ⟨hne, _⟩ := hother
    · rfl
    · exact absurd hvalue hne
  · obtain ⟨heq, _⟩ | ⟨_, hother⟩ := hother
    · exact absurd heq hvalue
    · exact Option.some.inj (hindex.symm.trans hother)

/-- What one addition does to a heap, which has an invariant and looks up indices. -/
structure Interns (format : HeapFormat Value Builder) (IsSound : Builder → Prop)
    (lookup : Builder → Std.HashMap Value UInt32) : Prop where
  sound_empty : IsSound format.empty
  addsTo : ∀ builder value index after, (format.add value).run builder = .ok index after →
    IsSound builder → IsSound after ∧ format.AddsTo (lookup builder) (lookup after) value index
  unchanged : ∀ builder value error after,
    (format.add value).run builder = .error error after → after = builder
  reads : ∀ builder value index, IsSound builder → format.IsIndexOf (lookup builder) value index →
    format.valueAt (format.toBytes builder) index.toNat = .ok value
  accepts_iff : ∀ builder value, IsSound builder → (format.toBytes builder).size < 0x100000000 →
    ((∃ index after, (format.add value).run builder = .ok index after) ↔ format.HasForm value)

/-- After a value that is refused, all others fare as they would have without it. -/
theorem Interns.addAll_refused {IsSound : Builder → Prop}
    {table : Builder → Std.HashMap Value UInt32} {builder : Builder} {error : Error}
    (hinterns : format.Interns IsSound table)
    (herror : (format.step value builder).1 = .error error) (later : List Value) :
    format.addAll (value :: later) builder =
      ((value, .error error) :: (format.addAll later builder).1,
        (format.addAll later builder).2) := by
  have hafter := hinterns.unchanged _ _ _ _ ((step_eq_error_iff format).mp herror)
  have hunchanged : format.step value builder = (.error error, builder) := Prod.ext herror hafter
  rw [HeapFormat.addAll, hunchanged]

variable [LawfulBEq Value] [LawfulHashable Value]

theorem AddsTo.isIndexOf (hadds : format.AddsTo lookup after value index) :
    format.IsIndexOf after value index := by
  obtain ⟨hvalue, rfl, _⟩ | ⟨hvalue, hfound, rfl⟩ | ⟨hvalue, _, rfl⟩ := hadds
  · exact .inl ⟨hvalue, rfl⟩
  · exact .inr ⟨hvalue, hfound⟩
  · exact .inr ⟨hvalue, Std.HashMap.getElem?_insert_self⟩

/-- No value loses its index. -/
theorem AddsTo.keeps (hadds : format.AddsTo lookup after value index) {other : Value}
    {found : UInt32} (hfound : format.IsIndexOf lookup other found) :
    format.IsIndexOf after other found := by
  obtain ⟨_, _, rfl⟩ | ⟨_, _, rfl⟩ | ⟨_, hnew, rfl⟩ := hadds
  · exact hfound
  · exact hfound
  · obtain hnothing | ⟨hother, hlookup⟩ := hfound
    · exact .inl hnothing
    · have hne : (value == other) = false := by
        rw [beq_eq_false_iff_ne]
        rintro rfl
        rw [hnew] at hlookup
        cases hlookup
      exact .inr ⟨hother, by rw [Std.HashMap.getElem?_insert, hne]; exact hlookup⟩

namespace Interns

variable {IsSound : Builder → Prop} {table : Builder → Std.HashMap Value UInt32}
  {builder : Builder}

/-- Whatever comes of adding a value, the heap stays sound, no value loses its index, and a value
that is taken has the index that is given for it. -/
theorem step (hinterns : format.Interns IsSound table) (hsound : IsSound builder) (value : Value) :
    IsSound (format.step value builder).2 ∧
      (∀ other found, format.IsIndexOf (table builder) other found →
        format.IsIndexOf (table (format.step value builder).2) other found) ∧
      ∀ index, (format.step value builder).1 = .ok index →
        format.IsIndexOf (table (format.step value builder).2) value index := by
  unfold HeapFormat.step
  cases hrun : (format.add value).run builder with
  | ok index after =>
    obtain ⟨hafter, hadds⟩ := hinterns.addsTo builder value index after hrun hsound
    refine ⟨hafter, fun other found => hadds.keeps, fun given hgiven => ?_⟩
    cases hgiven
    exact hadds.isIndexOf
  | error error after =>
    obtain rfl := hinterns.unchanged builder value error after hrun
    exact ⟨hsound, fun other found hfound => hfound, nofun⟩

/-- The same holds of all values that are added one after the other: each that is taken keeps its
index until the end. -/
theorem addAll (hinterns : format.Interns IsSound table) (hsound : IsSound builder)
    (values : List Value) :
    IsSound (format.addAll values builder).2 ∧
      (∀ other found, format.IsIndexOf (table builder) other found →
        format.IsIndexOf (table (format.addAll values builder).2) other found) ∧
      ∀ value index, (value, .ok index) ∈ (format.addAll values builder).1 →
        format.IsIndexOf (table (format.addAll values builder).2) value index := by
  induction values generalizing builder with
  | nil => exact ⟨hsound, fun _ _ hfound => hfound, nofun⟩
  | cons first values ih =>
    obtain ⟨hmiddle, hkeeps, hfirst⟩ := hinterns.step hsound first
    obtain ⟨hafter, hrest, houtcomes⟩ := ih hmiddle
    refine ⟨hafter, fun other found hfound => hrest other found (hkeeps other found hfound), ?_⟩
    intro value index hmem
    obtain hhead | htail := List.mem_cons.mp hmem
    · obtain ⟨rfl, hgiven⟩ := Prod.mk.inj hhead
      exact hrest value index (hfirst index hgiven.symm)
    · exact houtcomes value index htail

/-- A heap whose additions keep an invariant and its indices is read back from its bytes. -/
theorem isInterning (hinterns : format.Interns IsSound table) : format.IsInterning := by
  have hrun (values : List Value) := hinterns.addAll hinterns.sound_empty values
  have hreads {values : List Value} {value : Value} {index : UInt32}
      (hindex : format.IsIndexOf (table (format.ofValues values)) value index) :
      format.valueAt (format.finished values) index.toNat = .ok value :=
    hinterns.reads _ value index (hrun values).1 hindex
  have hnothing (values : List Value) :
      format.valueAt (format.finished values) 0 = .ok format.nothing :=
    hreads (.inl ⟨rfl, rfl⟩)
  constructor
  case nothing_at => exact hnothing
  case valueAt_eq =>
    intro values value index hmem
    exact hreads ((hrun values).2.2 value index hmem)
  case index_eq_zero_iff =>
    intro values value index hmem
    have hindex := (hrun values).2.2 value index hmem
    constructor
    · rintro rfl
      exact Except.ok.inj ((hreads hindex).symm.trans (hnothing values))
    · rintro rfl
      exact hindex.unique (.inl ⟨rfl, rfl⟩)
  case index_eq_iff =>
    intro values first second firstIndex secondIndex hfirst hsecond
    have hfirst := (hrun values).2.2 first firstIndex hfirst
    have hsecond := (hrun values).2.2 second secondIndex hsecond
    constructor
    · rintro rfl
      exact Except.ok.inj ((hreads hfirst).symm.trans (hreads hsecond))
    · rintro rfl
      exact hfirst.unique hsecond
  case accepts_iff =>
    intro values value hsize
    simp only [step_eq_ok_iff]
    exact hinterns.accepts_iff _ value (hrun values).1 hsize
  case refused =>
    intro earlier value later error herror
    have hlater := hinterns.addAll_refused herror later
    refine ⟨?_, (format.addAll later (format.ofValues earlier)).1, ?_, ?_⟩
    · unfold finished ofValues at *
      rw [addAll_append, addAll_append, hlater]
    · unfold history ofValues
      rw [addAll_append]
    · unfold history ofValues at *
      rw [addAll_append, hlater]

end Interns

end HeapFormat

namespace BlobHeap

/-- A heap below 4 gigabytes takes every blob whose length has a form. -/
theorem Builder.exists_add {builder : Builder} {value : Bytes}
    (hroom : builder.data.size < 0x100000000) (hvalue : value.size ≤ Compressed.maxUInt) :
    ∃ index after, (add value).run builder = .ok index after := by
  suffices hadd : Yields (fun _ _ => True) (fun _ _ => False) (add value) builder from
    hadd.exists_ok
  obtain ⟨form, hform⟩ := Compressed.exists_encodeUInt hvalue
  unfold Compressed.maxUInt at hvalue
  unfold add
  split
  · exact .pure trivial
  apply Yields.get_bind
  split
  · exact .pure trivial
  apply Yields.get_bind
  refine .guard (by omega) (.guard (by omega) ?_)
  rw [hform]
  exact .modify_bind (.pure trivial)

/-- The finished heap is one that opens. -/
theorem Builder.IsSound.ofBytes_toBytes {builder : Builder} (hsound : builder.IsSound) :
    ofBytes builder.toBytes = .ok ⟨builder.toBytes⟩ :=
  if_pos ((hsound.empty_at.grow _).getElem?_eq 0 rfl)

theorem interns_format : format.Interns Builder.IsSound Builder.lookup where
  sound_empty := Builder.isSound_empty
  addsTo builder value index after hadd hsound := by
    refine ⟨(Builder.run_add hadd hsound).1, ?_⟩
    obtain ⟨rfl, rfl, rfl⟩ | ⟨hvalue, hfound, rfl⟩ | ⟨hvalue, hnew, _, _, _, rfl⟩ :=
      Builder.run_add_cases hadd
    · exact .inl ⟨rfl, rfl, rfl⟩
    · exact .inr (.inl ⟨hvalue, hfound, rfl⟩)
    · exact .inr (.inr ⟨hvalue, hnew, rfl⟩)
  unchanged builder value error after hadd := (Builder.run_add_error hadd).1
  reads builder value index hsound hindex := by
    have hblob : HasBlob builder.data index value := by
      obtain ⟨rfl, rfl⟩ | ⟨_, hfound⟩ := hindex
      · exact hasBlob_empty hsound.empty_at
      · exact hsound.found value index hfound
    exact bind_eq_ok_iff.mpr ⟨_, hsound.ofBytes_toBytes, (hblob.grow _).blobAt_eq⟩
  accepts_iff builder value hsound hsize := by
    constructor
    · rintro ⟨index, after, hadd⟩
      obtain ⟨_, _, form, hform, _⟩ := Builder.run_add hadd hsound
      exact Compressed.le_of_encodeUInt hform
    · have hle := (Bytes.hasAt_pad4 builder.data).size_le
      rw [Nat.zero_add] at hle
      exact Builder.exists_add (lt_of_le_of_lt hle hsize)

end BlobHeap

namespace StringHeap

/-- A heap below 4 gigabytes takes every string without a zero byte. -/
theorem Builder.exists_add {builder : Builder} {value : String}
    (hroom : builder.data.size < 0x100000000) (hvalue : 0 ∉ Bytes.ofText value) :
    ∃ index after, (add value).run builder = .ok index after := by
  suffices hadd : Yields (fun _ _ => True) (fun _ _ => False) (add value) builder from
    hadd.exists_ok
  unfold add
  split
  · exact .pure trivial
  apply Yields.get_bind
  split
  · exact .pure trivial
  refine .guard (by simpa using hvalue) ?_
  apply Yields.get_bind
  exact .guard (by omega) (.modify_bind (.pure trivial))

theorem interns_format : format.Interns Builder.IsSound Builder.lookup where
  sound_empty := Builder.isSound_empty
  addsTo builder value index after hadd hsound := by
    refine ⟨(Builder.run_add hadd hsound).1, ?_⟩
    obtain ⟨rfl, rfl, rfl⟩ | ⟨hvalue, hfound, rfl⟩ | ⟨hvalue, hnew, _, _, rfl⟩ :=
      Builder.run_add_cases hadd
    · exact .inl ⟨rfl, rfl, rfl⟩
    · exact .inr (.inl ⟨hvalue, hfound, rfl⟩)
    · exact .inr (.inr ⟨hvalue, hnew, rfl⟩)
  unchanged builder value error after hadd := (Builder.run_add_error hadd).1
  reads builder value index hsound hindex := by
    have hstring : HasString builder.data index value := by
      obtain ⟨rfl, rfl⟩ | ⟨_, hfound⟩ := hindex
      · exact hsound.empty_at
      · exact hsound.found value index hfound
    have hopen : ofBytes builder.toBytes = .ok ⟨builder.toBytes⟩ :=
      if_pos ((hsound.empty_at.grow _).hasAt.getElem?_eq 0 rfl)
    exact bind_eq_ok_iff.mpr ⟨_, hopen, (hstring.grow _).stringAt_eq⟩
  accepts_iff builder value hsound hsize := by
    constructor
    · rintro ⟨index, after, hadd⟩
      obtain ⟨_, _, hstring⟩ := Builder.run_add hadd hsound
      exact hstring.zero_notMem
    · have hle := (Bytes.hasAt_pad4 builder.data).size_le
      rw [Nat.zero_add] at hle
      exact Builder.exists_add (lt_of_le_of_lt hle hsize)

end StringHeap

namespace GuidHeap

/-- A heap below 4 gigabytes takes every identifier. -/
theorem Builder.exists_add {builder : Builder} (hroom : builder.data.size < 0x100000000)
    (value : Guid) : ∃ index after, (add value).run builder = .ok index after := by
  suffices hadd : Yields (fun _ _ => True) (fun _ _ => False) (add value) builder from
    hadd.exists_ok
  unfold add
  split
  · exact .pure trivial
  apply Yields.get_bind
  split
  · exact .pure trivial
  apply Yields.get_bind
  exact .guard (by omega) (.modify_bind (.pure trivial))

theorem interns_format : format.Interns Builder.IsSound Builder.lookup where
  sound_empty := Builder.isSound_empty
  addsTo builder value index after hadd hsound := by
    refine ⟨(Builder.run_add hadd hsound).1, ?_⟩
    obtain ⟨rfl, rfl, rfl⟩ | ⟨hvalue, hfound, rfl⟩ | ⟨hvalue, hnew, _, rfl⟩ :=
      Builder.run_add_cases hadd
    · exact .inl ⟨rfl, rfl, rfl⟩
    · exact .inr (.inl ⟨hvalue, hfound, rfl⟩)
    · exact .inr (.inr ⟨hvalue, hnew, rfl⟩)
  unchanged builder value error after hadd := (Builder.run_add_error hadd).1
  reads builder value index hsound hindex := by
    have hguid : HasGuid builder.data index value := by
      obtain ⟨rfl, rfl⟩ | ⟨_, hfound⟩ := hindex
      · exact .inl ⟨rfl, rfl⟩
      · exact hsound.found value index hfound
    exact bind_eq_ok_iff.mpr ⟨⟨builder.data⟩, if_pos hsound.whole, hguid.guidAt_eq⟩
  accepts_iff builder value hsound hsize :=
    ⟨fun _ => trivial, fun _ => Builder.exists_add hsize value⟩

end GuidHeap

/-- Each heap, whatever was added to it in whatever order, has every value that it took at the index
that was given for it once it is finished, gives equal values equal indices and others others, and
is the same as if the values that it refused had never been added. -/
theorem heaps_intern : BlobHeap.format.IsInterning ∧ StringHeap.format.IsInterning ∧
    GuidHeap.format.IsInterning :=
  ⟨BlobHeap.interns_format.isInterning, StringHeap.interns_format.isInterning,
    GuidHeap.interns_format.isInterning⟩

end PortablePdb
