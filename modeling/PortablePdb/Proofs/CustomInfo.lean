import PortablePdb.CustomInfo.Blob
import PortablePdb.Proofs.Compressed
import PortablePdb.Proofs.Deflate
import PortablePdb.Proofs.Names

namespace PortablePdb

open Reader

theorem CustomKind.ofGuid_guid {kind : CustomKind} (hkind : kind ∈ known) :
    ofGuid kind.guid = kind := by
  revert kind
  decide

theorem Token.row_lt (token : Token) : token.row.toNat < 0x1000000 := by
  simp only [Token.row, UInt32.toNat_mod, UInt32.reduceToNat]
  omega

theorem Token.row_ne_zero {token : Token} {table : Table} (htable : token.isTable table = true) :
    token.row ≠ 0 := by
  simp only [Token.isTable, Bool.and_eq_true, bne_iff_ne] at htable
  exact htable.2

/-- The token of the row of a method is the method. -/
theorem Token.methodDef_row {method : Token} (hmethod : method.isTable .methodDef = true) :
    methodDef method.row = method := by
  have hid : method.value.toNat / 0x1000000 = Table.methodDef.id := by
    simp only [isTable, tableId, Bool.and_eq_true, beq_iff_eq] at hmethod
    exact hmethod.1
  have hvalue : (methodDef method.row).value = method.value := by
    apply UInt32.toNat_inj.mp
    have hlt := method.value.toNat_lt
    simp only [methodDef, ofParts, row, Nat.toUInt32_eq, UInt32.toNat_ofNat', UInt32.toNat_mod,
      UInt32.reduceToNat]
    omega
  cases method
  exact congrArg Token.mk hvalue

/-- Methods are the same if their rows are. -/
theorem Token.beq_eq_beq_row {first second : Token} (hfirst : first.isTable .methodDef = true)
    (hsecond : second.isTable .methodDef = true) :
    (first == second) = (first.row == second.row) := by
  rw [Bool.eq_iff_iff, beq_iff_eq, beq_iff_eq]
  constructor
  · exact congrArg Token.row
  · intro hrow
    rw [← Token.methodDef_row hfirst, hrow, Token.methodDef_row hsecond]

namespace CustomInfo

theorem readRest_takesLast (form : Bytes) : readRest.TakesLast form form := by
  intro data position hform hend
  have hremaining : data.size - position = form.size := by omega
  rw [readRest, runAt_bind]
  change (bytes (data.size - position)).runAt data position = _
  rw [hremaining, takes_bytes form data position hform, hend]

theorem toInt_toInt32 {size : Nat} (hsize : size < 0x80000000) :
    (size.toUInt32.toInt32).toInt = (size : Int) := by
  have hnat : size.toUInt32.toNat = size :=
    UInt32.toNat_ofNat_of_lt' (by simp [UInt32.size]; omega)
  have hbits : size.toUInt32.toBitVec.toNat = size := hnat
  rw [Int32.toInt, UInt32.toBitVec_toInt32, BitVec.toInt_eq_toNat_of_lt (by omega), hbits]

/-- The payload of an embedded source is read as the text that it stands for. -/
theorem decode_source {size : Nat} {payload data : Bytes} {text : String}
    (hsize : size < 0x80000000)
    (hdata : (if size = 0 then pure payload else Deflate.inflate payload size) = .ok data)
    (htext : data.toText? = some text) :
    decode .embeddedSource (Bytes.le32 size.toUInt32 ++ payload) =
      .ok (.embeddedSource text (size ≠ 0)) := by
  have hread : readSource.TakesLast (Bytes.le32 size.toUInt32 ++ payload)
      (.embeddedSource text (size ≠ 0)) := by
    refine (takes_le32 size.toUInt32).bind_last ?_
    simp only [toInt_toInt32 hsize]
    rw [if_neg (by omega)]
    refine (readRest_takesLast payload).bind ?_
    have hcast : decide ((size : Int) ≠ 0) = decide (size ≠ 0) := by simp
    rw [hcast]
    by_cases hzero : size = 0
    · rw [if_pos hzero] at hdata
      cases hdata
      rw [if_pos (by omega), pure_bind, htext]
      exact takes_pure _
    · rw [if_neg hzero] at hdata
      rw [if_neg (by omega), Int.toNat_natCast]
      refine (takes_lift hdata).empty_bind ?_
      rw [htext]
      exact takes_pure _
  exact hread.eval_eq

/-- An embedded source is read back unless it is empty. The size of an empty text says that the text
is not compressed, so that the stream itself is read for it. -/
theorem decode_encodeSource {compress : Bytes → Bytes} (hcompress : Deflate.IsCompressor compress)
    {text : String} {blob : Bytes} (hblob : encodeSource text compress = .ok blob) :
    ∃ content, decode .embeddedSource blob = .ok (.embeddedSource content (text ≠ "")) ∧
      (content = text ↔ text ≠ "") := by
  simp only [encodeSource] at hblob
  split at hblob
  · next hfits =>
    cases hblob
    by_cases hempty : text = ""
    · subst hempty
      obtain ⟨content, hcontent⟩ := hcompress.empty_isText
      refine ⟨content, decode_source hfits rfl hcontent, ?_⟩
      simpa using hcompress.ne_empty hcontent
    · have hsize : (Bytes.ofText text).size ≠ 0 := by
        rw [Bytes.size_ofText]
        exact mt String.utf8ByteSize_eq_zero_iff.mp hempty
      have hinflate : Deflate.inflate (compress (Bytes.ofText text)) (Bytes.ofText text).size =
          .ok (Bytes.ofText text) := by
        simp only [Deflate.inflate, hcompress.inflate?_eq, if_true]
      refine ⟨text, ?_, iff_of_true rfl hempty⟩
      have hread := decode_source hfits (by rw [if_neg hsize, hinflate]) (Bytes.toText?_ofText text)
      rw [decide_eq_true hsize] at hread
      rw [decide_eq_true hempty]
      exact hread
  · cases hblob

theorem encodeHoisted_eq (scopes : List HoistedScope) :
    encodeHoisted scopes = Bytes.concat (scopes.map fun scope =>
      Bytes.le32 scope.start ++ Bytes.le32 scope.length) := by
  have hfold (out : Bytes) : scopes.foldl (fun out scope =>
      out ++ Bytes.le32 scope.start ++ Bytes.le32 scope.length) out =
      out ++ Bytes.concat (scopes.map fun scope =>
        Bytes.le32 scope.start ++ Bytes.le32 scope.length) := by
    rw [← Bytes.foldl_append_eq]
    simp only [Array.append_assoc]
  rw [encodeHoisted, hfold, Array.empty_append]

/-- Hoisted locals are read back in order. -/
theorem decode_encodeHoisted (scopes : List HoistedScope) :
    decode .hoistedLocalScopes (encodeHoisted scopes) = .ok (.hoistedLocalScopes scopes) := by
  have hitems : (items readHoisted).TakesLast (encodeHoisted scopes) scopes := by
    rw [encodeHoisted_eq]
    induction scopes with
    | nil => exact items_nil _
    | cons scope scopes ih =>
      have hscope : readHoisted.Takes (Bytes.le32 scope.start ++ Bytes.le32 scope.length) scope :=
        (takes_le32 scope.start).bind (takes_le32 scope.length).bind_pure
      exact hscope.items_cons (by simp) ih
  exact hitems.bind_pure.eval_eq

/-- The awaits of a method are read back, each with the method to resume in. -/
theorem takes_encodeAwaits {method : Token} {awaits : List Await} {form : Bytes}
    (hmethod : method.isTable .methodDef = true) (hform : encodeAwaits method awaits = .ok form) :
    (items readAwait).TakesLast form
      (awaits.map fun await => { await with resumeMethod := method }) := by
  induction awaits generalizing form with
  | nil =>
    cases hform
    exact items_nil _
  | cons await awaits ih =>
    unfold encodeAwaits at hform
    split at hform
    · cases hform
    · obtain ⟨row, hrow, hform⟩ := bind_eq_ok_iff.mp hform
      obtain ⟨rest, hrest, hform⟩ := bind_eq_ok_iff.mp hform
      rw [← pure_eq_ok_iff.mp hform]
      have htoken : Token.methodDef method.row.toNat.toUInt32 = method := by
        rw [Nat.toUInt32_eq, UInt32.ofNat_toNat]
        exact Token.methodDef_row hmethod
      have hawait : readAwait.Takes
          (Bytes.le32 await.yieldOffset ++ (Bytes.le32 await.resumeOffset ++ row))
          { await with resumeMethod := method } := by
        have hread : readAwait.Takes
            (Bytes.le32 await.yieldOffset ++ (Bytes.le32 await.resumeOffset ++ row))
            ⟨await.yieldOffset, await.resumeOffset, .methodDef method.row.toNat.toUInt32⟩ :=
          (takes_le32 _).bind ((takes_le32 _).bind (Compressed.takes_encodeUInt hrow).bind_pure)
        rwa [htoken] at hread
      have hparts : Bytes.le32 await.yieldOffset ++ Bytes.le32 await.resumeOffset ++ row =
          Bytes.le32 await.yieldOffset ++ (Bytes.le32 await.resumeOffset ++ row) :=
        Array.append_assoc
      rw [hparts]
      refine hawait.items_cons ?_ (ih hrest)
      simp only [Array.size_append, Bytes.size_le32]
      omega

/-- The stepping of a method is written as its handler and its awaits. -/
theorem encodeStepping_eq {stepping : AsyncStepping} {method : Token} {blob : Bytes}
    (hblob : encodeStepping stepping method = .ok blob) :
    method.isTable .methodDef = true ∧ ∃ handler form,
      (if handler = 0 then none else some (handler - 1)) = stepping.catchHandler ∧
      encodeAwaits method stepping.awaits = .ok form ∧ blob = Bytes.le32 handler ++ form := by
  obtain ⟨hmethod, hblob⟩ := guard_eq_ok_iff.mp hblob
  refine ⟨by simpa using hmethod, ?_⟩
  cases hhandler : stepping.catchHandler with
  | none =>
    simp only [hhandler, pure_bind] at hblob
    obtain ⟨form, hform, hblob⟩ := bind_eq_ok_iff.mp hblob
    exact ⟨0, form, rfl, hform, (pure_eq_ok_iff.mp hblob).symm⟩
  | some offset =>
    simp only [hhandler] at hblob
    obtain ⟨hoffset, hblob⟩ := guard_eq_ok_iff.mp hblob
    rw [pure_bind] at hblob
    obtain ⟨form, hform, hblob⟩ := bind_eq_ok_iff.mp hblob
    refine ⟨offset + 1, form, ?_, hform, (pure_eq_ok_iff.mp hblob).symm⟩
    have hne : offset + 1 ≠ 0 := by
      intro hzero
      apply hoffset
      have hnat := congrArg UInt32.toNat hzero
      have hlt := offset.toNat_lt
      apply UInt32.toNat_inj.mp
      simp only [UInt32.toNat_add, UInt32.reduceToNat] at hnat ⊢
      omega
    rw [if_neg hne, UInt32.add_sub_cancel]

/-- The stepping of a method is read back, with the method in each of its awaits. -/
theorem decode_encodeStepping {stepping : AsyncStepping} {method : Token} {blob : Bytes}
    (hblob : encodeStepping stepping method = .ok blob) :
    decode .asyncStepping blob = .ok (.asyncStepping
      { stepping with
        awaits := stepping.awaits.map fun await => { await with resumeMethod := method } }) := by
  obtain ⟨hmethod, handler, form, hhandler, hform, rfl⟩ := encodeStepping_eq hblob
  have hread : readStepping.TakesLast (Bytes.le32 handler ++ form)
      ⟨if handler = 0 then none else some (handler - 1),
        stepping.awaits.map fun await => { await with resumeMethod := method }⟩ :=
    (takes_le32 handler).bind_last (takes_encodeAwaits hmethod hform).bind_pure
  rw [hhandler] at hread
  exact hread.bind_pure.eval_eq

end CustomInfo

end PortablePdb
