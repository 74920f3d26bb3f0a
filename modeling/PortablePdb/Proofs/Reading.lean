import PortablePdb.Bytes.Reader

namespace PortablePdb

/-- Of two computations that may fail, the first has to succeed for both to do so. -/
theorem bind_eq_ok_iff {ε α β : Type} {x : Except ε α} {f : α → Except ε β} {y : β} :
    (x >>= f) = .ok y ↔ ∃ a, x = .ok a ∧ f a = .ok y := by
  cases x <;> simp [bind, Except.bind]

theorem ok_bind {ε α β : Type} (a : α) (f : α → Except ε β) : (.ok a >>= f) = f a :=
  rfl

theorem pure_eq_ok_iff {ε α : Type} {x y : α} : (pure x : Except ε α) = .ok y ↔ x = y := by
  simp [pure, Except.pure]

theorem exists_ok_of_toOption_map {ε α β : Type} {x : Except ε α} {f : α → β} {b : β}
    (hx : x.toOption.map f = some b) : ∃ a, x = .ok a ∧ f a = b := by
  cases x with
  | error error => cases hx
  | ok a => exact ⟨a, rfl, Option.some.inj hx⟩

/-- What is refused on some condition succeeds only without it. -/
theorem guard_eq_ok_iff {ε α β : Type} {condition : Prop} [Decidable condition] {error : ε}
    {more : α → Except ε β} {rest : Except ε β} {y : β} :
    (if condition then (throw error : Except ε α) >>= more else rest) = .ok y ↔
      ¬ condition ∧ rest = .ok y := by
  by_cases hcondition : condition
  · rw [if_pos hcondition]
    exact ⟨nofun, fun hboth => absurd hcondition hboth.1⟩
  · rw [if_neg hcondition]
    exact ⟨fun hrest => ⟨hcondition, hrest⟩, fun hboth => hboth.2⟩

theorem bind_eq_error_iff {ε α β : Type} {x : Except ε α} {f : α → Except ε β} {error : ε} :
    (x >>= f) = .error error ↔ x = .error error ∨ ∃ a, x = .ok a ∧ f a = .error error := by
  cases x <;> simp [bind, Except.bind]

/-- What is refused on some condition fails with it, or in its rest without it. -/
theorem guard_eq_error_iff {ε α β : Type} {condition : Prop} [Decidable condition]
    {refusal error : ε} {more : α → Except ε β} {rest : Except ε β} :
    (if condition then (throw refusal : Except ε α) >>= more else rest) = .error error ↔
      condition ∧ refusal = error ∨ ¬ condition ∧ rest = .error error := by
  by_cases hcondition : condition
  · rw [if_pos hcondition]
    change Except.error refusal = Except.error error ↔ _
    simp [hcondition]
  · rw [if_neg hcondition]
    simp [hcondition]

namespace Bytes

@[simp] theorem size_le16 (value : UInt16) : (le16 value).size = 2 :=
  size_ofNatLE 2 _

@[simp] theorem size_le32 (value : UInt32) : (le32 value).size = 4 :=
  size_ofNatLE 4 _

@[simp] theorem size_le64 (value : UInt64) : (le64 value).size = 8 :=
  size_ofNatLE 8 _

@[simp] theorem size_ofText (text : String) : (ofText text).size = text.utf8ByteSize :=
  rfl

theorem toText?_ofText (text : String) : toText? (ofText text) = some text := by
  simp only [toText?, ofText, String.fromUTF8?, String.toUTF8_eq_toByteArray]
  rw [dif_pos text.isValidUTF8]
  rfl

theorem ofText_of_toText? {data : Bytes} {text : String} (htext : data.toText? = some text) :
    ofText text = data := by
  simp only [toText?, String.fromUTF8?] at htext
  split at htext
  · cases htext
    rfl
  · cases htext

/-- The bytes of the data from a position on are those of a form, followed by others. -/
def HasAt (data : Bytes) (position : Nat) (form : Bytes) : Prop :=
  ∃ before after, data = before ++ form ++ after ∧ before.size = position

theorem hasAt_self (data : Bytes) : data.HasAt 0 data :=
  ⟨#[], #[], by simp, rfl⟩

theorem hasAt_of_eq {data form : Bytes} (hdata : data = form) : data.HasAt 0 form := by
  subst hdata
  exact hasAt_self data

theorem hasAt_empty {data : Bytes} {position : Nat} (hle : position ≤ data.size) :
    data.HasAt position #[] := by
  refine ⟨data.extract 0 position, data.extract position, ?_, by simp [hle]⟩
  simp [Array.extract_append_extract, Nat.max_eq_right hle]

/-- The bytes of forms, one after the other. -/
def concat : List Bytes → Bytes
  | [] => #[]
  | form :: forms => form ++ concat forms

@[simp] theorem concat_nil : concat [] = #[] :=
  rfl

@[simp] theorem concat_cons (form : Bytes) (forms : List Bytes) :
    concat (form :: forms) = form ++ concat forms :=
  rfl

theorem concat_append (first second : List Bytes) :
    concat (first ++ second) = concat first ++ concat second := by
  induction first with
  | nil => simp
  | cons form forms ih => simp [ih, Array.append_assoc]

/-- Forms of few bytes each are few bytes together. -/
theorem size_concat_map_le {α : Type} {items : List α} {form : α → Bytes} {bound : Nat}
    (hle : ∀ item ∈ items, (form item).size ≤ bound) :
    (concat (items.map form)).size ≤ bound * items.length := by
  induction items with
  | nil => exact Nat.zero_le _
  | cons item items ih =>
    have hitem := hle item List.mem_cons_self
    have hitems := ih fun other hother => hle other (List.mem_cons_of_mem item hother)
    rw [List.map_cons, concat_cons, Array.size_append, List.length_cons, Nat.mul_succ]
    omega

/-- Empty forms can be left out. -/
theorem concat_filter {α : Type} {form : α → Bytes} {keep : α → Bool} {items : List α}
    (hempty : ∀ item ∈ items, keep item = false → form item = #[]) :
    concat (items.map form) = concat ((items.filter keep).map form) := by
  induction items with
  | nil => rfl
  | cons item items ih =>
    have hrest := ih fun other hother => hempty other (List.mem_cons_of_mem item hother)
    cases hkeep : keep item with
    | true => simp [hkeep, hrest]
    | false => simp [hkeep, hrest, hempty item List.mem_cons_self hkeep]

/-- Forms that are added one by one stand after what was there before. -/
theorem foldl_append_eq {α : Type} (form : α → Bytes) (items : List α) (out : Bytes) :
    items.foldl (fun out item => out ++ form item) out = out ++ concat (items.map form) := by
  induction items generalizing out with
  | nil => simp
  | cons item items ih => simp [ih, Array.append_assoc]

/-- Padding comes after the data. -/
theorem hasAt_pad4 (data : Bytes) : data.pad4.HasAt 0 data :=
  ⟨#[], zeros (align4 data.size - data.size), by simp [pad4], rfl⟩

theorem pad4_eq_self {data : Bytes} (haligned : data.size % 4 = 0) : data.pad4 = data := by
  have hsize : align4 data.size - data.size = 0 := by
    simp only [align4]
    omega
  rw [pad4, hsize]
  exact Array.append_empty

theorem pad4_pad4 (data : Bytes) : data.pad4.pad4 = data.pad4 := by
  apply pad4_eq_self
  simp only [size_pad4, align4]
  omega

namespace HasAt

variable {data form rest : Bytes} {position : Nat}

theorem size_le (hform : data.HasAt position form) : position + form.size ≤ data.size := by
  obtain ⟨before, after, rfl, rfl⟩ := hform
  simp only [Array.size_append]
  omega

theorem extract_eq (hform : data.HasAt position form) :
    data.extract position (position + form.size) = form := by
  obtain ⟨before, after, rfl, rfl⟩ := hform
  simp [Array.extract_append, Array.append_assoc]

theorem getElem?_eq (hform : data.HasAt position form) (i : Nat) {byte : UInt8}
    (hbyte : form[i]? = some byte) : data[position + i]? = some byte := by
  obtain ⟨before, after, rfl, rfl⟩ := hform
  have hlt : i < form.size := (Array.getElem?_eq_some_iff.mp hbyte).1
  rw [Array.append_assoc, Array.getElem?_append_right (Nat.le_add_right _ _),
    Nat.add_sub_cancel_left, Array.getElem?_append_left hlt, hbyte]

theorem left (hboth : data.HasAt position (form ++ rest)) : data.HasAt position form := by
  obtain ⟨before, after, rfl, hbefore⟩ := hboth
  exact ⟨before, rest ++ after, by simp only [Array.append_assoc], hbefore⟩

theorem right (hboth : data.HasAt position (form ++ rest)) :
    data.HasAt (position + form.size) rest := by
  obtain ⟨before, after, rfl, hbefore⟩ := hboth
  exact ⟨before ++ form, after, by simp only [Array.append_assoc], by simp [hbefore]⟩

/-- What stands in a form stands in all data that the form stands in. -/
theorem inner {inner : Bytes} {offset : Nat} (hform : data.HasAt position form)
    (hinner : form.HasAt offset inner) : data.HasAt (position + offset) inner := by
  obtain ⟨before, after, rfl, rfl⟩ := hform
  obtain ⟨left, right, rfl, rfl⟩ := hinner
  exact ⟨before ++ left, right ++ after, by simp only [Array.append_assoc], by simp⟩

/-- Data may grow at the end. -/
theorem grow (hform : data.HasAt position form) (more : Bytes) :
    (data ++ more).HasAt position form := by
  obtain ⟨before, after, rfl, hbefore⟩ := hform
  exact ⟨before, after ++ more, by simp only [Array.append_assoc], hbefore⟩

/-- A window on the data starts with the form that stands at its start, if it is as long. -/
theorem toList_extract {length : Nat} (hform : data.HasAt position form)
    (hle : form.size ≤ length) :
    ∃ rest, (data.extract position (position + length)).toList = form.toList ++ rest := by
  obtain ⟨before, after, rfl, rfl⟩ := hform
  refine ⟨after.toList.take (length - form.size), ?_⟩
  have htake : List.take length form.toList = form.toList :=
    List.take_of_length_le (by simpa using hle)
  rw [Array.toList_extract, List.extract_eq_take_drop]
  simp [List.take_append, htake]

end HasAt

end Bytes

namespace Reader

variable {α β : Type}

/-- Wherever the form stands, the reader gives the value and stops behind the form. -/
def Takes (reader : Reader α) (form : Bytes) (value : α) : Prop :=
  ∀ data position, data.HasAt position form →
    reader.runAt data position = .ok value (position + form.size)

/-- Where the form stands at the end of the data, the reader gives the value and stops there. -/
def TakesLast (reader : Reader α) (form : Bytes) (value : α) : Prop :=
  ∀ data position, data.HasAt position form → position + form.size = data.size →
    reader.runAt data position = .ok value data.size

theorem runAt_bind (reader : Reader α) (next : α → Reader β) (data : Bytes) (position : Nat) :
    (reader >>= next).runAt data position =
      match reader.runAt data position with
      | .ok value position => (next value).runAt data position
      | .error error position => .error error position := by
  have hrun : reader.runAt data position = reader data position := rfl
  rw [hrun]
  change EStateM.bind (reader data) (fun value => next value data) position = _
  unfold EStateM.bind
  cases reader data position with
  | ok value stop => rfl
  | error error stop => rfl

theorem runAt_pure (value : α) (data : Bytes) (position : Nat) :
    (pure value : Reader α).runAt data position = .ok value position :=
  rfl

theorem runAt_read (data : Bytes) (position : Nat) :
    (read : Reader Bytes).runAt data position = .ok data position :=
  rfl

theorem runAt_get (data : Bytes) (position : Nat) :
    (get : Reader Nat).runAt data position = .ok position position :=
  rfl

theorem runAt_hasMore (data : Bytes) (position : Nat) :
    hasMore.runAt data position = .ok (decide (position < data.size)) position :=
  rfl

theorem takes_pure (value : α) : (pure value : Reader α).Takes #[] value :=
  fun _ _ _ => rfl

namespace Takes

variable {reader : Reader α} {next : α → Reader β} {form rest : Bytes} {a : α} {b : β}

theorem bind (hreader : reader.Takes form a) (hnext : (next a).Takes rest b) :
    (reader >>= next).Takes (form ++ rest) b := by
  intro data position hboth
  rw [runAt_bind, hreader data position hboth.left]
  simp only
  rw [hnext data _ hboth.right, Array.size_append, Nat.add_assoc]

/-- A reader after which nothing more is read. -/
theorem bind_pure {f : α → β} (hreader : reader.Takes form a) :
    (reader >>= fun value => pure (f value)).Takes form (f a) := by
  have hboth : (reader >>= fun value => pure (f value)).Takes (form ++ #[]) (f a) :=
    hreader.bind (takes_pure (f a))
  rwa [Array.append_empty] at hboth

theorem map {f : α → β} (hreader : reader.Takes form a) : (f <$> reader).Takes form (f a) :=
  hreader.bind_pure

/-- A step that reads nothing. -/
theorem empty_bind (hreader : reader.Takes #[] a) (hnext : (next a).Takes rest b) :
    (reader >>= next).Takes rest b := by
  simpa using hreader.bind hnext

theorem bind_last (hreader : reader.Takes form a) (hnext : (next a).TakesLast rest b) :
    (reader >>= next).TakesLast (form ++ rest) b := by
  intro data position hboth hend
  rw [Array.size_append] at hend
  rw [runAt_bind, hreader data position hboth.left]
  exact hnext data _ hboth.right (by omega)

theorem last (hreader : reader.Takes form a) : reader.TakesLast form a := by
  intro data position hform hend
  rw [hreader data position hform, hend]

theorem evalAt_eq {data : Bytes} {position : Nat} (hreader : reader.Takes form a)
    (hform : data.HasAt position form) : reader.evalAt data position = .ok a := by
  simp only [evalAt, hreader data position hform]

end Takes

/-- A reader that asks whether bytes are left, at a form that is not empty. -/
theorem TakesLast.bind_hasMore {next : Bool → Reader α} {form : Bytes} {a : α}
    (hnext : (next true).TakesLast form a) (hpos : 0 < form.size) :
    (hasMore >>= next).TakesLast form a := by
  intro data position hform hend
  have hlt : position < data.size := by omega
  rw [runAt_bind, runAt_hasMore, decide_eq_true hlt]
  exact hnext data position hform hend

/-- What was read up to the end of the data is used without reading more. -/
theorem TakesLast.bind {reader : Reader α} {next : α → Reader β} {form : Bytes} {a : α} {b : β}
    (hreader : reader.TakesLast form a) (hnext : (next a).Takes #[] b) :
    (reader >>= next).TakesLast form b := by
  intro data position hform hend
  rw [runAt_bind, hreader data position hform hend]
  exact hnext data data.size (Bytes.hasAt_empty (Nat.le_refl _))

theorem TakesLast.bind_pure {reader : Reader α} {form : Bytes} {a : α} {f : α → β}
    (hreader : reader.TakesLast form a) :
    (reader >>= fun value => pure (f value)).TakesLast form (f a) :=
  hreader.bind (takes_pure (f a))

theorem TakesLast.eval_eq {reader : Reader α} {form : Bytes} {a : α}
    (hreader : reader.TakesLast form a) : reader.eval form = .ok a := by
  simp only [eval, evalAt, hreader form 0 (Bytes.hasAt_self form) (Nat.zero_add _)]

theorem takes_lift {value : Except Error α} {a : α} (hvalue : value = .ok a) :
    (Reader.lift value).Takes #[] a := by
  subst hvalue
  exact takes_pure a

theorem runAt_seek {data : Bytes} {position target : Nat} (hle : target ≤ data.size) :
    (seek target).runAt data position = .ok () target := by
  have hnot : ¬ data.size < target := by omega
  simp only [seek, runAt_bind, runAt_read, if_neg hnot]
  rfl

theorem runAt_bytes {count position : Nat} {data : Bytes} (hsize : position + count ≤ data.size) :
    (bytes count).runAt data position =
      .ok (data.extract position (position + count)) (position + count) := by
  simp only [bytes, advance, runAt_bind, runAt_get, runAt_seek hsize, runAt_read, runAt_pure]

theorem takes_bytes (form : Bytes) : (bytes form.size).Takes form form := by
  intro data position hform
  rw [runAt_bytes hform.size_le, hform.extract_eq]

theorem takes_natLE (width : Nat) {n : Nat} (hlt : n < Bytes.capacity width) :
    (natLE width).Takes (Bytes.ofNatLE width n) n := by
  have hbytes := (takes_bytes (Bytes.ofNatLE width n)).bind_pure (f := Bytes.natLE)
  rwa [Bytes.size_ofNatLE, Bytes.natLE_ofNatLE, Nat.mod_eq_of_lt hlt] at hbytes

theorem takes_u8 (byte : UInt8) : u8.Takes #[byte] byte := by
  have hform : Bytes.ofNatLE 1 byte.toNat = #[byte] := by simp [Bytes.ofNatLE, Bytes.digitsLE]
  have hread := (takes_natLE 1 byte.toNat_lt).bind_pure (f := Nat.toUInt8)
  rw [hform, Nat.toUInt8_eq, UInt8.ofNat_toNat] at hread
  exact hread

theorem takes_le16 (value : UInt16) : le16.Takes (Bytes.le16 value) value := by
  have hread := (takes_natLE 2 value.toNat_lt).bind_pure (f := Nat.toUInt16)
  rwa [Nat.toUInt16_eq, UInt16.ofNat_toNat] at hread

theorem takes_le32 (value : UInt32) : le32.Takes (Bytes.le32 value) value := by
  have hread := (takes_natLE 4 value.toNat_lt).bind_pure (f := Nat.toUInt32)
  rwa [Nat.toUInt32_eq, UInt32.ofNat_toNat] at hread

theorem takes_le64 (value : UInt64) : le64.Takes (Bytes.le64 value) value := by
  have hread := (takes_natLE 8 value.toNat_lt).bind_pure (f := Nat.toUInt64)
  rwa [Nat.toUInt64_eq, UInt64.ofNat_toNat] at hread

/-- Nothing is left to collect at the end of the data. -/
theorem collect_nil {σ : Type} (step : σ → Reader (Option α × σ)) (state : σ) :
    (collect step state).TakesLast #[] [] := by
  intro data position _ hend
  have hnot : ¬ position < data.size := by simp at hend; omega
  change collect step state data position = _
  rw [collect, if_neg hnot]
  simpa using hend

/-- A step that takes a form of its own is followed by the rest of the collection. -/
theorem Takes.collect_cons {σ : Type} {step : σ → Reader (Option α × σ)} {state after : σ}
    {form rest : Bytes} {item? : Option α} {items : List α}
    (hstep : (step state).Takes form (item?, after)) (hpos : 0 < form.size)
    (hrest : (collect step after).TakesLast rest items) :
    (collect step state).TakesLast (form ++ rest) (item?.toList ++ items) := by
  intro data position hboth hend
  rw [Array.size_append] at hend
  have hlt : position < data.size := by omega
  have hnext := hrest data _ hboth.right (by omega)
  change collect step state data position = _
  change collect step after data _ = _ at hnext
  rw [collect, if_pos hlt, hstep data position hboth.left]
  simp only
  rw [if_pos (by omega), hnext]

section Ensures

variable {σ : Type} {reader : Reader α} {post : α → Prop}

/-- Whatever the data, a value that the reader gives has a property. -/
def Ensures (reader : Reader α) (post : α → Prop) : Prop :=
  ∀ data position value stop, reader.runAt data position = .ok value stop → post value

theorem ensures_true (reader : Reader α) : reader.Ensures fun _ => True :=
  fun _ _ _ _ _ => trivial

theorem ensures_pure {value : α} (hvalue : post value) : (pure value : Reader α).Ensures post := by
  intro data position other stop hrun
  cases hrun
  exact hvalue

theorem ensures_throw (error : Error) : (throw error : Reader α).Ensures post :=
  fun _ _ _ _ hrun => nomatch hrun

theorem Ensures.bind {next : α → Reader β} {more : β → Prop} (hreader : reader.Ensures post)
    (hnext : ∀ value, post value → (next value).Ensures more) :
    (reader >>= next).Ensures more := by
  intro data position value stop hrun
  rw [runAt_bind] at hrun
  cases hfirst : reader.runAt data position with
  | ok first middle =>
    rw [hfirst] at hrun
    exact hnext first (hreader _ _ _ _ hfirst) _ _ _ _ hrun
  | error error middle =>
    rw [hfirst] at hrun
    cases hrun

theorem Ensures.map {f : α → β} {more : β → Prop} (hreader : reader.Ensures post)
    (hf : ∀ value, post value → more (f value)) : (f <$> reader).Ensures more := by
  rw [map_eq_pure_bind]
  exact hreader.bind fun value hvalue => ensures_pure (hf value hvalue)

theorem ensures_lift {operation : Except Error α} (hoperation : ∀ value, operation = .ok value →
    post value) : (Reader.lift operation).Ensures post := by
  cases operation with
  | ok value => exact ensures_pure (hoperation value rfl)
  | error error => exact ensures_throw error

theorem Ensures.eval {data : Bytes} {value : α} (hreader : reader.Ensures post)
    (heval : reader.eval data = .ok value) : post value := by
  unfold Reader.eval evalAt at heval
  cases hrun : reader.runAt data 0 with
  | ok found stop =>
    rw [hrun] at heval
    cases heval
    exact hreader data 0 value stop hrun
  | error error stop =>
    rw [hrun] at heval
    cases heval

/-- What holds of nothing, and of every item with those after it, holds of all that is collected. -/
theorem ensures_collect {step : σ → Reader (Option α × σ)} {motive : σ → List α → Prop}
    (hnil : ∀ state, motive state [])
    (hstep : ∀ state, (step state).Ensures fun (item?, after) =>
      ∀ items, motive after items → motive state (item?.toList ++ items)) (state : σ) :
    (collect step state).Ensures (motive state) := by
  intro data position items stop hrun
  change collect step state data position = .ok items stop at hrun
  fun_induction collect step state data position generalizing items stop with
  | case1 state position _ item? after next hitem _ rest _ hrest ih =>
    cases hrun
    exact hstep state _ _ _ _ hitem rest (ih rest _ hrest)
  | case5 state position _ =>
    cases hrun
    exact hnil state
  | _ => cases hrun

end Ensures

end Reader

end PortablePdb
