import PortablePdb.Bytes.Compressed
import PortablePdb.Metadata.CodedIndex
import PortablePdb.Proofs.Checked.Words

namespace PortablePdb

namespace Reader

variable {α β : Type}

theorem runAt_lift_ok (value : α) (data : Bytes) (position : Nat) :
    (lift (.ok value)).runAt data position = .ok value position :=
  rfl

theorem runAt_throw (error : Error) (data : Bytes) (position : Nat) :
    (throw error : Reader α).runAt data position = .error error position :=
  rfl

theorem runAt_bytes_of_lt {count position : Nat} {data : Bytes}
    (hsize : data.size < position + count) :
    (bytes count).runAt data position = .error .outOfBounds position := by
  simp only [bytes, advance, seek, runAt_bind, runAt_get, runAt_read, if_pos hsize, runAt_throw]

theorem evalAt_bind {reader : Reader α} {next : α → Reader β} {data : Bytes} {position stop : Nat}
    {value : α} (hrun : reader.runAt data position = .ok value stop) :
    (reader >>= next).evalAt data position = (next value).evalAt data stop := by
  rw [evalAt, runAt_bind, hrun]
  rfl

theorem evalAt_ite (condition : Prop) [Decidable condition] (reader other : Reader α) (data : Bytes)
    (position : Nat) : (if condition then reader else other).evalAt data position =
      if condition then reader.evalAt data position else other.evalAt data position :=
  apply_ite (evalAt · data position) condition reader other

end Reader

namespace Checked

variable {α β γ : Type}

/-- What is known of a run from a position: a value with a property, at least so many bytes ahead
and within the data, or a failure that is no fault. -/
def Moves (least : Nat) (post : α → Prop) (data : Bytes) (position : Nat) :
    EStateM.Result Error Nat α → Prop
  | .ok value next => post value ∧ position + least ≤ next ∧ next ≤ data.size
  | .error error _ => error ≠ .fault

/-- A checked reader has the runs of a plain one, wherever it starts in data that fit into
memory. -/
def ReadsAs (checked plain : Reader α) (least : Nat) (post : α → Prop) : Prop :=
  ∀ data position, data.size < memory → position ≤ data.size →
    checked.runAt data position = plain.runAt data position ∧
      Moves least post data position (plain.runAt data position)

/-- A result at a position counted from another one. -/
def moved (start : Nat) : EStateM.Result Error Nat α → EStateM.Result Error Nat α
  | .ok value position => .ok value (start + position)
  | .error error position => .error error (start + position)

/-- To read from the bytes behind a position is to read from that position on. -/
def Relocates (reader : Reader α) : Prop :=
  ∀ (data : Bytes) (start position : Nat), start ≤ data.size →
    reader.runAt data (start + position) =
      moved start (reader.runAt (data.extract start) position)

namespace ReadsAs

variable {checked plain : Reader α} {least : Nat} {post : α → Prop} {more : β → Prop}

theorem pure {value : α} (hpost : post value) :
    ReadsAs (Pure.pure value) (Pure.pure value) 0 post :=
  fun _ _ _ hle => ⟨rfl, hpost, Nat.le_refl _, hle⟩

theorem throw {error : Error} (herror : error ≠ .fault) :
    ReadsAs (MonadExcept.throw error) (MonadExcept.throw error) least post :=
  fun _ _ _ _ => ⟨rfl, herror⟩

theorem mono {weaker : α → Prop} {less : Nat} (hreads : ReadsAs checked plain least post)
    (hless : less ≤ least) (hpost : ∀ value, post value → weaker value) :
    ReadsAs checked plain less weaker := by
  intro data position hsize hle
  obtain ⟨heq, hmoves⟩ := hreads data position hsize hle
  refine ⟨heq, ?_⟩
  cases hrun : plain.runAt data position with
  | ok value next =>
    rw [hrun] at hmoves
    obtain ⟨hvalue, hnext, hend⟩ := hmoves
    exact ⟨hpost value hvalue, by omega, hend⟩
  | error error next =>
    rw [hrun] at hmoves
    exact hmoves

/-- What is read in a row is read the same way, and moves at least as far as its first part. -/
theorem bind {next plainNext : α → Reader β} (hfirst : ReadsAs checked plain least post)
    (hnext : ∀ value, post value → ReadsAs (next value) (plainNext value) 0 more) :
    ReadsAs (checked >>= next) (plain >>= plainNext) least more := by
  intro data position hsize hle
  obtain ⟨heq, hmoves⟩ := hfirst data position hsize hle
  rw [Reader.runAt_bind, Reader.runAt_bind, heq]
  cases hrun : plain.runAt data position with
  | ok value middle =>
    rw [hrun] at hmoves
    obtain ⟨hvalue, hmiddle, hend⟩ := hmoves
    obtain ⟨heqNext, hmovesNext⟩ := hnext value hvalue data middle hsize hend
    refine ⟨heqNext, ?_⟩
    simp only
    cases hrunNext : (plainNext value).runAt data middle with
    | ok value stop =>
      rw [hrunNext] at hmovesNext
      obtain ⟨hvalue, hstop, hend⟩ := hmovesNext
      exact ⟨hvalue, by omega, hend⟩
    | error error stop =>
      rw [hrunNext] at hmovesNext
      exact hmovesNext
  | error error middle =>
    rw [hrun] at hmoves
    exact ⟨rfl, hmoves⟩

/-- What is read in a row, after other parts. -/
theorem andThen {next plainNext : α → Reader β} (hfirst : ReadsAs checked plain least post)
    (hnext : ∀ value, post value → ReadsAs (next value) (plainNext value) 0 more) :
    ReadsAs (checked >>= next) (plain >>= plainNext) 0 more :=
  (hfirst.bind hnext).mono (Nat.zero_le _) fun _ hvalue => hvalue

/-- A reader whose value is only changed. -/
theorem bind_pure {f g : α → β} (hreads : ReadsAs checked plain least post)
    (heq : ∀ value, post value → f value = g value ∧ more (g value)) :
    ReadsAs (checked >>= fun value => Pure.pure (f value))
      (plain >>= fun value => Pure.pure (g value)) least more := by
  refine hreads.bind fun value hvalue => ?_
  obtain ⟨hsame, hpost⟩ := heq value hvalue
  rw [hsame]
  exact pure hpost

/-- A computation that reads nothing. -/
theorem lift {operation plainOperation : Except Error α}
    (hagrees : Agrees operation plainOperation post) :
    ReadsAs (Reader.lift operation) (Reader.lift plainOperation) 0 post := by
  obtain ⟨rfl, hpost, hfault⟩ := hagrees
  cases operation with
  | ok value => exact pure (hpost value rfl)
  | error error => exact throw fun herror => hfault (congrArg _ herror)

/-- An operation within its range has no counterpart in the plain reader. -/
theorem step {operation : Except Error β} {value : β} {next : β → Reader α}
    (hoperation : operation = .ok value) (hnext : ReadsAs (next value) plain least post) :
    ReadsAs (Reader.lift operation >>= next) plain least post := by
  subst hoperation
  exact hnext

theorem guard {condition : Prop} [Decidable condition] {error : Error}
    {next plainNext : γ → Reader α} (herror : error ≠ .fault)
    (hrest : ¬ condition → ReadsAs checked plain least post) :
    ReadsAs (if condition then (MonadExcept.throw error : Reader γ) >>= next else checked)
      (if condition then (MonadExcept.throw error : Reader γ) >>= plainNext else plain)
      least post := by
  split
  · exact fun _ _ _ _ => ⟨rfl, herror⟩
  · exact hrest ‹_›

theorem ite {condition : Prop} [Decidable condition] {other plainOther : Reader α}
    (hthen : condition → ReadsAs checked plain least post)
    (helse : ¬ condition → ReadsAs other plainOther least post) :
    ReadsAs (if condition then checked else other) (if condition then plain else plainOther)
      least post := by
  split
  · exact hthen ‹_›
  · exact helse ‹_›

/-- A computation of the value at a position. -/
theorem evalAt {data : Bytes} {position : Nat} (hreads : ReadsAs checked plain least post)
    (hsize : data.size < memory) (hle : position ≤ data.size) :
    Agrees (checked.evalAt data position) (plain.evalAt data position) post := by
  obtain ⟨heq, hmoves⟩ := hreads data position hsize hle
  rw [Reader.evalAt, Reader.evalAt, heq]
  cases hrun : plain.runAt data position with
  | ok value next =>
    rw [hrun] at hmoves
    exact Agrees.ok hmoves.1
  | error error next =>
    rw [hrun] at hmoves
    exact Agrees.error hmoves

theorem eval {data : Bytes} (hreads : ReadsAs checked plain least post)
    (hsize : data.size < memory) : Agrees (checked.eval data) (plain.eval data) post :=
  hreads.evalAt hsize (Nat.zero_le _)

/-- Items are read the same way up to the end of the data if every step moves ahead, and keeps what
the next one relies on. -/
theorem collect {σ : Type} {step plainStep : σ → Reader (Option α × σ)} {Keeps : σ → Prop}
    (hstep : ∀ state, Keeps state →
      ReadsAs (step state) (plainStep state) 1 fun result => Keeps result.2)
    {state : σ} (hstate : Keeps state) :
    ReadsAs (Reader.collect step state) (Reader.collect plainStep state) 0 fun _ => True := by
  intro data position hsize hle
  change Reader.collect step state data position = Reader.collect plainStep state data position ∧
    Moves 0 _ data position (Reader.collect plainStep state data position)
  -- every step leaves fewer bytes, so that the induction is on their number
  induction hleft : data.size - position using Nat.strongRecOn generalizing state position with
  | ind left ih =>
    rw [Reader.collect, Reader.collect]
    by_cases hlt : position < data.size
    · rw [if_pos hlt, if_pos hlt]
      obtain ⟨heq, hmoves⟩ := hstep state hstate data position hsize hle
      rw [heq]
      cases hrun : (plainStep state).runAt data position with
      | ok result next =>
        rw [hrun] at hmoves
        obtain ⟨hkeeps, hnext, hend⟩ := hmoves
        obtain ⟨item?, after⟩ := result
        obtain ⟨heqRest, hmovesRest⟩ := ih (data.size - next) (by omega) hkeeps next hend rfl
        simp only [if_pos (show position < next by omega), heqRest, true_and]
        cases hrest : Reader.collect plainStep after data next with
        | ok items stop =>
          rw [hrest] at hmovesRest
          exact ⟨trivial, by have := hmovesRest.2.1; omega, hmovesRest.2.2⟩
        | error error stop =>
          rw [hrest] at hmovesRest
          exact hmovesRest
      | error error next =>
        rw [hrun] at hmoves
        exact ⟨rfl, hmoves⟩
    · rw [if_neg hlt, if_neg hlt]
      exact ⟨rfl, trivial, Nat.le_refl _, hle⟩

theorem items (hreads : ReadsAs checked plain least post) (hleast : 1 ≤ least) :
    ReadsAs (Reader.items checked) (Reader.items plain) 0 fun _ => True := by
  have hstep (state : Unit) (_ : True) :
      ReadsAs (do return (some (← checked), ())) (do return (some (← plain), ())) 1
        fun _ => True :=
    (hreads.mono hleast fun _ _ => trivial).bind_pure fun _ _ => ⟨rfl, trivial⟩
  exact collect hstep trivial

end ReadsAs

namespace Relocates

variable {reader : Reader α}

theorem pure (value : α) : Relocates (Pure.pure value : Reader α) :=
  fun _ _ _ _ => rfl

theorem throw (error : Error) : Relocates (MonadExcept.throw error : Reader α) :=
  fun _ _ _ _ => rfl

theorem lift (operation : Except Error α) : Relocates (Reader.lift operation) := by
  cases operation with
  | ok value => exact pure value
  | error error => exact throw error

theorem bind {next : α → Reader β} (hreader : Relocates reader)
    (hnext : ∀ value, Relocates (next value)) : Relocates (reader >>= next) := by
  intro data start position hle
  rw [Reader.runAt_bind, Reader.runAt_bind, hreader data start position hle]
  cases reader.runAt (data.extract start) position with
  | ok value middle => exact hnext value data start middle hle
  | error error middle => rfl

theorem bind_pure (hreader : Relocates reader) (f : α → β) :
    Relocates (reader >>= fun value => Pure.pure (f value)) :=
  hreader.bind fun value => pure (f value)

theorem ite {condition : Prop} [Decidable condition] {other : Reader α}
    (hthen : Relocates reader) (helse : Relocates other) :
    Relocates (if condition then reader else other) := by
  split
  · exact hthen
  · exact helse

theorem evalAt_eq {data : Bytes} {start : Nat} (hreader : Relocates reader)
    (hle : start ≤ data.size) (position : Nat) :
    reader.evalAt data (start + position) = reader.evalAt (data.extract start) position := by
  rw [Reader.evalAt, Reader.evalAt, hreader data start position hle]
  cases reader.runAt (data.extract start) position <;> rfl

theorem hasMore : Relocates Reader.hasMore := by
  intro data start position hle
  change EStateM.Result.ok (decide (start + position < data.size)) _ =
    .ok (decide (position < (data.extract start).size)) _
  rw [Array.size_extract]
  congr 1
  exact decide_eq_decide.mpr (by omega)

theorem remaining : Relocates Reader.remaining := by
  intro data start position hle
  change EStateM.Result.ok (data.size - (start + position)) _ =
    .ok ((data.extract start).size - position) _
  rw [Array.size_extract]
  congr 1
  omega

theorem peek : Relocates Reader.peek := by
  intro data start position hle
  simp only [Reader.peek, Reader.runAt_bind, Reader.runAt_read, Reader.runAt_get]
  by_cases hlt : start + position < data.size
  · rw [Array.getElem?_eq_getElem hlt, Array.getElem?_eq_getElem (by
      simp only [Array.size_extract]; omega), Array.getElem_extract]
    rfl
  · rw [Array.getElem?_eq_none (by omega), Array.getElem?_eq_none (by
      simp only [Array.size_extract]; omega)]
    rfl

theorem bytes (count : Nat) : Relocates (Reader.bytes count) := by
  intro data start position hle
  by_cases hsize : start + position + count ≤ data.size
  · rw [Reader.runAt_bytes hsize,
      Reader.runAt_bytes (by simp only [Array.size_extract]; omega)]
    simp only [moved, Array.extract_extract, Nat.add_assoc, Nat.min_eq_left (show
      start + (position + count) ≤ data.size by omega)]
  · rw [Reader.runAt_bytes_of_lt (by omega),
      Reader.runAt_bytes_of_lt (by simp only [Array.size_extract]; omega)]
    rfl

theorem natLE (width : Nat) : Relocates (Reader.natLE width) :=
  (bytes width).bind_pure Bytes.natLE

theorem u8 : Relocates Reader.u8 :=
  (natLE 1).bind_pure Nat.toUInt8

theorem le16 : Relocates Reader.le16 :=
  (natLE 2).bind_pure Nat.toUInt16

theorem le32 : Relocates Reader.le32 :=
  (natLE 4).bind_pure Nat.toUInt32

theorem le64 : Relocates Reader.le64 :=
  (natLE 8).bind_pure Nat.toUInt64

theorem index (wide : Bool) : Relocates (Index.read wide) :=
  ite le32 (le16.bind_pure UInt16.toUInt32)

end Relocates

/-- Reads from the bytes behind a position. -/
def readFrom (reader : Reader α) (data : Bytes) (start : Nat) : Except Error α := do
  reader.eval (← sliceFrom data start)

theorem ReadsAs.readFrom {checked plain : Reader α} {least : Nat} {post : α → Prop} {data : Bytes}
    {start : Nat} (hreads : ReadsAs checked plain least post) (hrelocates : Relocates plain)
    (hsize : data.size < memory) (hle : start ≤ data.size) :
    Agrees (readFrom checked data start) (plain.evalAt data start) post := by
  refine Agrees.step (sliceFrom_eq hle) ?_
  have heval : plain.evalAt data start = plain.eval (data.extract start) :=
    hrelocates.evalAt_eq hle 0
  rw [heval]
  exact hreads.eval (by simp only [Array.size_extract]; omega)

/-- A number of bytes. -/
def bytes (count : Nat) : Reader Bytes := do
  let data ← read
  let start ← get
  if Word.long.limit ≤ start + count then throw .outOfBounds
  if data.size < start + count then throw .outOfBounds
  let form ← Reader.lift (slice data start (start + count))
  set (start + count)
  return form

/-- An unsigned number of `width` bytes, least significant first. -/
def natLE (width : Nat) : Reader Nat :=
  return (← bytes width).natLE

/-- A byte. -/
def u8 : Reader UInt8 :=
  return (← natLE 1).toUInt8

/-- A 16-bit word, low byte first. -/
def le16 : Reader UInt16 :=
  return (← natLE 2).toUInt16

/-- A 32-bit word, low byte first. -/
def le32 : Reader UInt32 :=
  return (← natLE 4).toUInt32

/-- A 64-bit word, low byte first. -/
def le64 : Reader UInt64 :=
  return (← natLE 8).toUInt64

/-- Reads an index. -/
def index (wide : Bool) : Reader UInt32 := do
  if wide then le32 else return (← le16).toUInt32

theorem readsAs_hasMore : ReadsAs Reader.hasMore Reader.hasMore 0 fun _ => True :=
  fun _ _ _ hle => ⟨rfl, trivial, Nat.le_refl _, hle⟩

theorem readsAs_bytes (count : Nat) :
    ReadsAs (bytes count) (Reader.bytes count) count fun _ => True := by
  intro data position hsize hle
  simp only [memory] at hsize
  by_cases hfits : position + count ≤ data.size
  · have hlimit : ¬ Word.long.limit ≤ position + count := by
      simp only [Word.limit]
      omega
    rw [Reader.runAt_bytes hfits]
    refine ⟨?_, trivial, Nat.le_refl _, hfits⟩
    simp only [bytes, Reader.runAt_bind, Reader.runAt_read, Reader.runAt_get, if_neg hlimit,
      if_neg (Nat.not_lt.mpr hfits), slice_eq (Nat.le_add_right position count) hfits,
      Reader.runAt_lift_ok]
    rfl
  · rw [Reader.runAt_bytes_of_lt (Nat.lt_of_not_le hfits)]
    refine ⟨?_, nofun⟩
    simp only [bytes, Reader.runAt_bind, Reader.runAt_read, Reader.runAt_get,
      if_pos (Nat.lt_of_not_le hfits)]
    split <;> rfl

theorem readsAs_natLE (width : Nat) :
    ReadsAs (natLE width) (Reader.natLE width) width fun _ => True :=
  (readsAs_bytes width).bind_pure fun _ _ => ⟨rfl, trivial⟩

theorem readsAs_u8 : ReadsAs u8 Reader.u8 1 fun _ => True :=
  (readsAs_natLE 1).bind_pure fun _ _ => ⟨rfl, trivial⟩

theorem readsAs_le16 : ReadsAs le16 Reader.le16 2 fun _ => True :=
  (readsAs_natLE 2).bind_pure fun _ _ => ⟨rfl, trivial⟩

theorem readsAs_le32 : ReadsAs le32 Reader.le32 4 fun _ => True :=
  (readsAs_natLE 4).bind_pure fun _ _ => ⟨rfl, trivial⟩

theorem readsAs_le64 : ReadsAs le64 Reader.le64 8 fun _ => True :=
  (readsAs_natLE 8).bind_pure fun _ _ => ⟨rfl, trivial⟩

theorem readsAs_index (wide : Bool) : ReadsAs (index wide) (Index.read wide) 2 fun _ => True :=
  ReadsAs.ite (fun _ => readsAs_le32.mono (by omega) fun _ _ => trivial) fun _ =>
    readsAs_le16.bind_pure fun _ _ => ⟨rfl, trivial⟩

end Checked

end PortablePdb
