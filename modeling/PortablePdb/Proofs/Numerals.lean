import PortablePdb.Decompiled.File

namespace PortablePdb

namespace Text.Numeral

/-- A base of which every digit that is written is read. -/
structure IsBase (base : Nat) : Prop where
  one_lt : 1 < base
  digit?_eq : ∀ digit < base, digit? base digit.digitChar = some digit

theorem isBase_ten : IsBase 10 :=
  ⟨by decide, by decide⟩

theorem isBase_sixteen : IsBase 16 :=
  ⟨by decide, by decide⟩

variable {base : Nat}

theorem ofDigits?_toDigits (hbase : IsBase base) (n : Nat) :
    ofDigits? base (Nat.toDigits base n) = some n := by
  induction n using Nat.strongRecOn with
  | ind n ih =>
    have hpos : 0 < base := Nat.lt_trans Nat.zero_lt_one hbase.one_lt
    obtain hlt | hle := Nat.lt_or_ge n base
    · rw [Nat.toDigits_of_lt_base hlt]
      simp [ofDigits?, hbase.digit?_eq n hlt]
    · have hquotient : n / base < n :=
        Nat.div_lt_self (Nat.lt_of_lt_of_le hpos hle) hbase.one_lt
      have hrest := ih (n / base) hquotient
      have hdigit := hbase.digit?_eq (n % base) (Nat.mod_lt n hpos)
      unfold ofDigits? at hrest ⊢
      rw [Nat.toDigits_of_base_le hbase.one_lt hle, List.foldlM_append, hrest]
      simp [hdigit, Nat.div_add_mod]

/-- Zeros before the digits do not matter. -/
theorem ofDigits?_leftpad (hbase : IsBase base) (width : Nat) (digits : List Char) :
    ofDigits? base (digits.leftpad width '0') = ofDigits? base digits := by
  have hzero : digit? base '0' = some 0 :=
    hbase.digit?_eq 0 (Nat.lt_trans Nat.zero_lt_one hbase.one_lt)
  unfold List.leftpad ofDigits?
  rw [List.foldlM_append]
  generalize width - digits.length = count
  induction count with
  | zero => rfl
  | succ count ih =>
    rw [List.replicate_succ, List.foldlM_cons, hzero]
    exact ih

/-- A numeral without a sign is read as the number that its digits stand for. -/
theorem read?_eq {bound n : Nat} {text : List Char} (hdigits : ofDigits? base text = some n)
    (hnonempty : text ≠ []) (hlt : n < bound) : read? base bound text = some n := by
  obtain ⟨first, rest, rfl⟩ := List.exists_cons_of_ne_nil hnonempty
  unfold read?
  split
  · next digits hsign =>
    cases hsign
    have hplus : digit? base '+' = none := rfl
    simp [ofDigits?, hplus] at hdigits
  · simp [hdigits, hlt]

/-- The decimal numeral of a number. -/
theorem read?_toDigits_ten {bound n : Nat} (hlt : n < bound) :
    read? 10 bound (Nat.toDigits 10 n) = some n :=
  read?_eq (ofDigits?_toDigits isBase_ten n) Nat.toDigits_ne_nil hlt

/-- The hexadecimal numeral of a number, with zeros before it. -/
theorem read?_padded {bound n : Nat} (width : Nat) (hlt : n < bound) :
    read? 16 bound (Hex.padded width n).toList = some n := by
  rw [Hex.padded, String.toList_ofList]
  refine read?_eq ?_ ?_ hlt
  · rw [ofDigits?_leftpad isBase_sixteen, ofDigits?_toDigits isBase_sixteen]
  · exact List.append_ne_nil_of_right_ne_nil _ Nat.toDigits_ne_nil

end Text.Numeral

open Text

/-- A token is read back from its text. -/
theorem Token.ofText?_toText (token : Token) : ofText? token.toText = some token := by
  have htext : token.toText.toList = '0' :: 'x' :: (Hex.padded 8 token.value.toNat).toList := by
    simp [toText]
  rw [ofText?, htext]
  simp [Numeral.read?_padded 8 token.value.toNat_lt]

/-- A function is read back from its name. -/
theorem PointTable.functionOf?_functionName (function : UInt32) :
    functionOf? (functionName function) = some function := by
  have hname : (functionName function).toList = Nat.toDigits 10 function.toNat := by
    simp [functionName]
  rw [functionOf?, hname, Numeral.read?_toDigits_ten function.toNat_lt]
  simp

end PortablePdb
