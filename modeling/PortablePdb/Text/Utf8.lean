import PortablePdb.Bytes.Basic

namespace PortablePdb.Text.Utf8

/-- What a first byte tells: the bits that it holds of the character, the number of bytes that
follow, and the range of the first of these. -/
structure Lead where
  value : Nat
  following : Nat
  low : UInt8 := 0x80
  high : UInt8 := 0xBF

/-- The meaning of a first byte, if a character may start with it. -/
def lead? (b : UInt8) : Option Lead :=
  if b < 0x80 then some ⟨b.toNat, 0, 0x80, 0xBF⟩
  else if b < 0xC2 then none
  else if b < 0xE0 then some ⟨b.toNat - 0xC0, 1, 0x80, 0xBF⟩
  else if b < 0xF0 then
    some ⟨b.toNat - 0xE0, 2, if b = 0xE0 then 0xA0 else 0x80, if b = 0xED then 0x9F else 0xBF⟩
  else if b < 0xF5 then
    some ⟨b.toNat - 0xF0, 3, if b = 0xF0 then 0x90 else 0x80, if b = 0xF4 then 0x8F else 0xBF⟩
  else none

/-- Takes the bytes that follow a first byte as long as they are in range, and gives the number of
the character, if it is complete, and the bytes after what was taken. -/
def takeFollowing (value : Nat) (low high : UInt8) :
    (following : Nat) → List UInt8 → Option Nat × List UInt8
  | 0, rest => (some value, rest)
  | _ + 1, [] => (none, [])
  | following + 1, b :: rest =>
    if low ≤ b && b ≤ high then
      takeFollowing (64 * value + (b.toNat - 0x80)) 0x80 0xBF following rest
    else (none, b :: rest)

theorem length_takeFollowing_le (value : Nat) (low high : UInt8) (following : Nat)
    (bytes : List UInt8) :
    (takeFollowing value low high following bytes).2.length ≤ bytes.length := by
  induction following generalizing value low high bytes with
  | zero => simp [takeFollowing]
  | succ following ih =>
    cases bytes with
    | nil => simp [takeFollowing]
    | cons b rest =>
      simp only [takeFollowing]
      split
      · exact Nat.le_trans (ih _ _ _ rest) (Nat.le_succ _)
      · exact Nat.le_refl _

/-- The character read in place of a mistake. -/
def replacement : Char := '\ufffd'

/-- The characters of a sequence of bytes. -/
def lossyChars : List UInt8 → List Char
  | [] => []
  | b :: rest =>
    match lead? b with
    | none => replacement :: lossyChars rest
    | some lead =>
      let taken := takeFollowing lead.value lead.low lead.high lead.following rest
      taken.1.elim replacement Char.ofNat :: lossyChars taken.2
  termination_by bytes => bytes.length
  decreasing_by
    · simp
    · exact Nat.lt_succ_of_le (length_takeFollowing_le ..)

/-- The text of a sequence of bytes. -/
def lossy (data : Bytes) : String :=
  match data.toText? with
  | some text => text
  | none => String.ofList (lossyChars data.toList)

end PortablePdb.Text.Utf8
