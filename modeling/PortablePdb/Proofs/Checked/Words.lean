import PortablePdb.Bytes.Index
import PortablePdb.Proofs.Reading

namespace PortablePdb.Checked

/-- The words of a machine whose addresses have 64 bits. -/
inductive Word where
  | byte
  | half
  | word
  | long
  deriving DecidableEq, Repr

namespace Word

/-- The number of bits of a word. -/
def bits : Word → Nat
  | .byte => 8
  | .half => 16
  | .word => 32
  | .long => 64

/-- The number of values of a word. -/
def limit : Word → Nat
  | .byte => 0x100
  | .half => 0x10000
  | .word => 0x100000000
  | .long => 0x10000000000000000

end Word

/-- The most bytes that a machine whose addresses have 64 bits holds in one piece, and one more. -/
def memory : Nat := 0x8000000000000000

variable {α β γ : Type}

/-- An operation that a machine can carry out on a condition only. -/
def within (condition : Prop) [Decidable condition] (value : α) : Except Error α :=
  if condition then .ok value else .error .fault

/-- The sum of two words. -/
def add (width : Word) (a b : Nat) : Except Error Nat :=
  within (a + b < width.limit) (a + b)

/-- The difference of two words. -/
def sub (a b : Nat) : Except Error Nat :=
  within (b ≤ a) (a - b)

/-- The product of two words. -/
def mul (width : Word) (a b : Nat) : Except Error Nat :=
  within (a * b < width.limit) (a * b)

/-- A word moved up by a number of bits; those that leave the word are lost. -/
def shiftLeft (width : Word) (a amount : Nat) : Except Error Nat :=
  within (amount < width.bits) ((a <<< amount) % width.limit)

/-- A word moved down by a number of bits. -/
def shiftRight (width : Word) (a amount : Nat) : Except Error Nat :=
  within (amount < width.bits) (a >>> amount)

/-- The sum of two signed long words. -/
def addSigned (a b : Int) : Except Error Int :=
  within (-(memory : Int) ≤ a + b ∧ a + b < memory) (a + b)

/-- The item of an array at an index. -/
def item (items : Array α) (index : Nat) : Except Error α :=
  match items[index]? with
  | some item => .ok item
  | none => .error .fault

/-- The bytes from a position up to another one. -/
def slice (data : Bytes) (start stop : Nat) : Except Error Bytes :=
  within (start ≤ stop ∧ stop ≤ data.size) (data.extract start stop)

/-- The bytes from a position on. -/
def sliceFrom (data : Bytes) (start : Nat) : Except Error Bytes :=
  within (start ≤ data.size) (data.extract start)

example : add .byte 200 100 = .error .fault := rfl

example : slice #[1, 2] 1 3 = .error .fault := rfl

theorem within_eq {condition : Prop} [Decidable condition] (hcondition : condition) (value : α) :
    within condition value = .ok value :=
  if_pos hcondition

theorem add_eq {width : Word} {a b : Nat} (hlt : a + b < width.limit) :
    add width a b = .ok (a + b) :=
  within_eq hlt _

theorem sub_eq {a b : Nat} (hle : b ≤ a) : sub a b = .ok (a - b) :=
  within_eq hle _

theorem mul_eq {width : Word} {a b : Nat} (hlt : a * b < width.limit) :
    mul width a b = .ok (a * b) :=
  within_eq hlt _

theorem shiftLeft_eq {width : Word} {a amount : Nat} (hamount : amount < width.bits) :
    shiftLeft width a amount = .ok ((a <<< amount) % width.limit) :=
  within_eq hamount _

theorem shiftRight_eq {width : Word} {a amount : Nat} (hamount : amount < width.bits) :
    shiftRight width a amount = .ok (a >>> amount) :=
  within_eq hamount _

theorem addSigned_eq {a b : Int} (hle : -(memory : Int) ≤ a + b) (hlt : a + b < memory) :
    addSigned a b = .ok (a + b) :=
  within_eq ⟨hle, hlt⟩ _

theorem item_eq {items : Array α} {index : Nat} (hlt : index < items.size) :
    item items index = .ok items[index] := by
  rw [item, Array.getElem?_eq_getElem hlt]

theorem slice_eq {data : Bytes} {start stop : Nat} (hle : start ≤ stop) (hstop : stop ≤ data.size) :
    slice data start stop = .ok (data.extract start stop) :=
  within_eq ⟨hle, hstop⟩ _

theorem sliceFrom_eq {data : Bytes} {start : Nat} (hle : start ≤ data.size) :
    sliceFrom data start = .ok (data.extract start) :=
  within_eq hle _

/-- Computations for each item that all succeed give all values. -/
theorem mapM_eq_ok {f : α → Except Error β} {g : α → β} {items : List α}
    (heq : ∀ a ∈ items, f a = .ok (g a)) : items.mapM f = .ok (items.map g) := by
  induction items with
  | nil => rfl
  | cons item items ih =>
    rw [List.mapM_cons, heq item List.mem_cons_self, ok_bind,
      ih fun other hother => heq other (List.mem_cons_of_mem item hother)]
    rfl

theorem mapM_array_eq_ok {f : α → Except Error β} {g : α → β} {items : Array α}
    (heq : ∀ a ∈ items, f a = .ok (g a)) : items.mapM f = .ok (items.map g) := by
  rw [Array.mapM_eq_mapM_toList, mapM_eq_ok fun a ha => heq a (Array.mem_def.mpr ha),
    ← Array.toList_map]
  rfl

/-- A checked computation agrees with a plain one. Both have the same result: a value of which
something is known, or a failure that is no fault. -/
structure Agrees (checked plain : Except Error α) (post : α → Prop) : Prop where
  eq : checked = plain
  post_of_eq_ok : ∀ value, plain = .ok value → post value
  ne_fault : plain ≠ .error .fault

theorem malformed_ne_fault (defect : Defect) : Error.malformed defect ≠ .fault :=
  nofun

theorem outOfBounds_ne_fault : Error.outOfBounds ≠ .fault :=
  nofun

namespace Agrees

variable {checked plain : Except Error α} {post : α → Prop} {more : β → Prop}

theorem ok {value : α} (hpost : post value) : Agrees (.ok value) (.ok value) post where
  eq := rfl
  post_of_eq_ok _ heq := Except.ok.inj heq ▸ hpost
  ne_fault := nofun

theorem pure {value : α} (hpost : post value) :
    Agrees (Pure.pure value) (Pure.pure value) post :=
  ok hpost

theorem error {error : Error} (herror : error ≠ .fault) :
    Agrees (.error error) (.error error) post where
  eq := rfl
  post_of_eq_ok _ heq := by cases heq
  ne_fault heq := herror (Except.error.inj heq)

theorem throw {error : Error} (herror : error ≠ .fault) :
    Agrees (MonadExcept.throw error) (MonadExcept.throw error) post :=
  Agrees.error herror

theorem mono {weaker : α → Prop} (hagrees : Agrees checked plain post)
    (hpost : ∀ value, post value → weaker value) : Agrees checked plain weaker where
  eq := hagrees.eq
  post_of_eq_ok value heq := hpost value (hagrees.post_of_eq_ok value heq)
  ne_fault := hagrees.ne_fault

/-- Steps in a row agree one by one. -/
theorem bind {next plainNext : α → Except Error β} (hfirst : Agrees checked plain post)
    (hnext : ∀ value, post value → Agrees (next value) (plainNext value) more) :
    Agrees (checked >>= next) (plain >>= plainNext) more := by
  obtain ⟨rfl, hpost, hfault⟩ := hfirst
  cases checked with
  | ok value => exact hnext value (hpost value rfl)
  | error error => exact Agrees.error fun herror => hfault (congrArg _ herror)

/-- An operation within its range has no counterpart in the plain computation. -/
theorem step {operation : Except Error β} {value : β} {next : β → Except Error α}
    (hoperation : operation = .ok value) (hnext : Agrees (next value) plain post) :
    Agrees (operation >>= next) plain post := by
  rw [hoperation]
  exact hnext

/-- What both refuse on some condition agrees if their rests do without it. -/
theorem guard {condition : Prop} [Decidable condition] {error : Error}
    {next plainNext : γ → Except Error α} (herror : error ≠ .fault)
    (hrest : ¬ condition → Agrees checked plain post) :
    Agrees (if condition then (MonadExcept.throw error : Except Error γ) >>= next else checked)
      (if condition then (MonadExcept.throw error : Except Error γ) >>= plainNext else plain)
      post := by
  split
  · exact Agrees.error herror
  · exact hrest ‹_›

theorem ite {condition : Prop} [Decidable condition] {other plainOther : Except Error α}
    (hthen : condition → Agrees checked plain post)
    (helse : ¬ condition → Agrees other plainOther post) :
    Agrees (if condition then checked else other) (if condition then plain else plainOther)
      post := by
  split
  · exact hthen ‹_›
  · exact helse ‹_›

/-- Computations for each item of a list agree item by item. -/
theorem mapM {f g : γ → Except Error α} {items : List γ}
    (hitems : ∀ item ∈ items, Agrees (f item) (g item) post) :
    Agrees (items.mapM f) (items.mapM g) fun values => ∀ value ∈ values, post value := by
  induction items with
  | nil => exact Agrees.pure nofun
  | cons item items ih =>
    rw [List.mapM_cons, List.mapM_cons]
    refine (hitems item List.mem_cons_self).bind fun value hvalue => ?_
    refine (ih fun other hother => hitems other (List.mem_cons_of_mem item hother)).bind
      fun values hvalues => Agrees.pure ?_
    intro other hother
    cases hother with
    | head => exact hvalue
    | tail _ hother => exact hvalues other hother

/-- Computations in a row agree if each of them does, and keeps what the next one relies on. -/
theorem foldlM {σ : Type} {f g : σ → γ → Except Error σ} {Keeps : σ → Prop} {items : List γ}
    (hitems : ∀ item ∈ items, ∀ state, Keeps state → Agrees (f state item) (g state item) Keeps)
    {state : σ} (hstate : Keeps state) :
    Agrees (items.foldlM f state) (items.foldlM g state) Keeps := by
  induction items generalizing state with
  | nil => exact Agrees.pure hstate
  | cons item items ih =>
    rw [List.foldlM_cons, List.foldlM_cons]
    exact (hitems item List.mem_cons_self state hstate).bind fun next hnext =>
      ih (fun other hother => hitems other (List.mem_cons_of_mem item hother)) hnext

/-- Computations for each item of an array agree item by item. -/
theorem mapM_array {f g : γ → Except Error α} {items : Array γ}
    (hitems : ∀ item ∈ items, Agrees (f item) (g item) post) :
    Agrees (items.mapM f) (items.mapM g) fun _ => True := by
  rw [Array.mapM_eq_mapM_toList, Array.mapM_eq_mapM_toList, map_eq_pure_bind, map_eq_pure_bind]
  exact (mapM fun item hitem => hitems item (Array.mem_def.mpr hitem)).bind
    fun _ _ => Agrees.pure trivial

end Agrees

end PortablePdb.Checked
