import Mathlib.Data.List.Pairwise
import PortablePdb.Image.Basic
import PortablePdb.Proofs.Reading

namespace PortablePdb

namespace Image

namespace Section

/-- An address is one of the section. -/
def Contains (s : Section) (address : Nat) : Prop :=
  s.virtualAddress.toNat ≤ address ∧ address < s.virtualAddress.toNat + s.virtualSize.toNat

/-- A position in the file is one of the raw data of the section. -/
def Holds (s : Section) (offset : Nat) : Prop :=
  s.rawPointer.toNat ≤ offset ∧ offset < s.rawPointer.toNat + s.rawSize.toNat

/-- The addresses of the section go beyond 32 bits. -/
def Overflows (s : Section) : Prop :=
  0xFFFFFFFF < s.virtualAddress.toNat + s.virtualSize.toNat

instance (s : Section) (address : Nat) : Decidable (s.Contains address) :=
  inferInstanceAs (Decidable (_ ∧ _))

instance (s : Section) (offset : Nat) : Decidable (s.Holds offset) :=
  inferInstanceAs (Decidable (_ ∧ _))

instance (s : Section) : Decidable s.Overflows :=
  inferInstanceAs (Decidable (_ < _))

/-- The position that is as far from the start of the raw data as an address is from the start of
the section. -/
def offsetOf (s : Section) (address : Nat) : Nat :=
  address - s.virtualAddress.toNat + s.rawPointer.toNat

/-- The address that is as far from the start of the section as a position is from the start of its
raw data. -/
def addressOf (s : Section) (offset : Nat) : Nat :=
  offset - s.rawPointer.toNat + s.virtualAddress.toNat

variable {s : Section} {address : Nat}

theorem addressOf_offsetOf (haddress : s.Contains address) :
    s.addressOf (s.offsetOf address) = address := by
  have hle := haddress.1
  unfold addressOf offsetOf
  omega

theorem holds_offsetOf_iff (haddress : s.Contains address) :
    s.Holds (s.offsetOf address) ↔ address < s.virtualAddress.toNat + s.rawSize.toNat := by
  have hle := haddress.1
  unfold Holds offsetOf
  omega

end Section

/-- No address belongs to two sections, and no position in the file to the raw data of two. -/
structure Apart (sections : List Section) : Prop where
  addresses : sections.Pairwise fun s t => ∀ address, s.Contains address → ¬ t.Contains address
  rawData : sections.Pairwise fun s t => ∀ offset, s.Holds offset → ¬ t.Holds offset

/-- Where no two items share a property, there is at most one item that has it. -/
theorem eq_of_pairwise_not {α β : Type} {has : α → β → Prop} {items : List α}
    (hapart : items.Pairwise fun a b => ∀ x, has a x → ¬ has b x) {a b : α} (ha : a ∈ items)
    (hb : b ∈ items) {x : β} (hax : has a x) (hbx : has b x) : b = a := by
  have hsymm : Std.Symm fun a b => ∀ x, has a x → ¬ has b x :=
    ⟨fun _ _ hnot x hb ha => hnot x ha hb⟩
  by_contra hne
  exact hapart.forall ha hb (Ne.symm hne) x hax hbx

section Translation

variable {sections : List Section} {s : Section} {address offset : Nat}

theorem offsetIn_cons (s : Section) (sections : List Section) :
    offsetIn address (s :: sections) =
      if s.Overflows then reject (.sectionOverflow s.virtualAddress s.virtualSize)
      else if s.Contains address then .ok (s.offsetOf address)
      else offsetIn address sections := by
  rw [offsetIn]
  exact if_congr Iff.rfl rfl (if_congr (by simp [Section.Contains]) rfl rfl)

theorem addressIn_cons (s : Section) (sections : List Section) :
    addressIn offset (s :: sections) =
      if s.Holds offset then .ok (s.addressOf offset) else addressIn offset sections := by
  rw [addressIn]
  exact if_congr (by simp [Section.Holds]) rfl rfl

/-- A position that is found for an address comes from a section that has the address. -/
theorem exists_of_offsetIn (hoffset : offsetIn address sections = .ok offset) :
    ∃ s ∈ sections, s.Contains address ∧ offset = s.offsetOf address := by
  induction sections with
  | nil => cases hoffset
  | cons first rest ih =>
    rw [offsetIn_cons] at hoffset
    split at hoffset
    · cases hoffset
    · split at hoffset
      · next hcontains =>
        cases hoffset
        exact ⟨first, List.mem_cons_self, hcontains, rfl⟩
      · obtain ⟨s, hs, hcontains⟩ := ih hoffset
        exact ⟨s, List.mem_cons_of_mem first hs, hcontains⟩

/-- If no section overflows, every address of a section has a position. -/
theorem offsetIn_of_contains (hsmall : ∀ t ∈ sections, ¬ t.Overflows)
    (hunique : ∀ t ∈ sections, t.Contains address → t = s) (hs : s ∈ sections)
    (haddress : s.Contains address) : offsetIn address sections = .ok (s.offsetOf address) := by
  induction sections with
  | nil => cases hs
  | cons first rest ih =>
    obtain ⟨hfirst, hrest⟩ := List.forall_mem_cons.mp hsmall
    obtain ⟨hsame, hunique⟩ := List.forall_mem_cons.mp hunique
    rw [offsetIn_cons, if_neg hfirst]
    split
    · next hcontains => rw [hsame hcontains]
    · next hnot =>
      obtain rfl | hmem := List.mem_cons.mp hs
      · exact absurd haddress hnot
      · exact ih hrest hunique hmem

/-- The address of a position is told by the section whose raw data hold it. -/
theorem addressIn_of_holds (hunique : ∀ t ∈ sections, t.Holds offset → t = s) (hs : s ∈ sections)
    (hholds : s.Holds offset) : addressIn offset sections = .ok (s.addressOf offset) := by
  induction sections with
  | nil => cases hs
  | cons first rest ih =>
    obtain ⟨hsame, hunique⟩ := List.forall_mem_cons.mp hunique
    rw [addressIn_cons]
    split
    · next hhere => rw [hsame hhere]
    · next hnot =>
      obtain rfl | hmem := List.mem_cons.mp hs
      · exact absurd hholds hnot
      · exact ih hunique hmem

/-- A position outside all raw data has no address. -/
theorem addressIn_of_not_holds (hnone : ∀ t ∈ sections, ¬ t.Holds offset) :
    addressIn offset sections = reject (.unmappedOffset offset) := by
  induction sections with
  | nil => rfl
  | cons first rest ih =>
    obtain ⟨hfirst, hrest⟩ := List.forall_mem_cons.mp hnone
    rw [addressIn_cons, if_neg hfirst]
    exact ih hrest

end Translation

/-- The position of an address leads back to it, and is one of the raw data of the section that has
the address, and of no other section. -/
structure LeadsBack (image : Image) (address offset : Nat) : Prop where
  address_eq : image.offsetToAddress offset = .ok address
  holds : ∃ s ∈ image.sections, s.Contains address ∧ s.Holds offset ∧
    ∀ t ∈ image.sections, t.Holds offset → t = s

variable {image : Image} {s : Section} {address : Nat}

/-- The raw data of a section hold the positions of its first addresses only. -/
theorem leadsBack_iff (hapart : Apart image.sections) (hs : s ∈ image.sections)
    (haddress : s.Contains address) : image.LeadsBack address (s.offsetOf address) ↔
      address < s.virtualAddress.toNat + s.rawSize.toNat := by
  rw [← Section.holds_offsetOf_iff haddress]
  constructor
  · rintro ⟨-, t, ht, hcontains, hholds, -⟩
    exact eq_of_pairwise_not hapart.addresses hs ht haddress hcontains ▸ hholds
  · intro hholds
    have hunique : ∀ t ∈ image.sections, t.Holds (s.offsetOf address) → t = s :=
      fun t ht hother => eq_of_pairwise_not hapart.rawData hs ht hholds hother
    refine ⟨?_, s, hs, haddress, hholds, hunique⟩
    rw [offsetToAddress, addressIn_of_holds hunique hs hholds, Section.addressOf_offsetOf haddress]

/-- In an image whose sections are apart, the position of an address is as far from the start of the
raw data of its section as the address is from the start of the section, and leads back to the
address exactly if the raw data reach that far. Behind them, the position has the address that
another section gives it, if it is one of the raw data of that section, and else no address. So all
positions lead back exactly if no section is larger in memory than its raw data. -/
theorem addressToOffset_leads_back (hapart : Apart image.sections) :
    (∀ address offset, image.addressToOffset address = .ok offset →
      ∃ s ∈ image.sections, s.Contains address ∧ offset = s.offsetOf address ∧
        (image.LeadsBack address offset ↔
          address < s.virtualAddress.toNat + s.rawSize.toNat) ∧
        (s.virtualAddress.toNat + s.rawSize.toNat ≤ address → ¬ s.Holds offset ∧
          (∀ t ∈ image.sections, t.Holds offset →
            image.offsetToAddress offset = .ok (t.addressOf offset)) ∧
          ((∀ t ∈ image.sections, ¬ t.Holds offset) →
            image.offsetToAddress offset = reject (.unmappedOffset offset)))) ∧
    ((∀ s ∈ image.sections, ¬ s.Overflows) →
      ((∀ address offset, image.addressToOffset address = .ok offset →
        image.LeadsBack address offset) ↔ ∀ s ∈ image.sections, s.virtualSize ≤ s.rawSize)) := by
  constructor
  · intro address offset hoffset
    obtain ⟨s, hs, haddress, rfl⟩ := exists_of_offsetIn hoffset
    refine ⟨s, hs, haddress, rfl, leadsBack_iff hapart hs haddress, fun hbehind => ⟨?_, ?_, ?_⟩⟩
    · rw [Section.holds_offsetOf_iff haddress]
      omega
    · intro t ht hholds
      exact addressIn_of_holds
        (fun other hother => eq_of_pairwise_not hapart.rawData ht hother hholds) ht hholds
    · exact addressIn_of_not_holds
  · intro hsmall
    constructor
    · intro hback s hs
      rw [UInt32.le_iff_toNat_le]
      by_contra hlarger
      -- The first address that the raw data do not reach.
      have haddress : s.Contains (s.virtualAddress.toNat + s.rawSize.toNat) :=
        ⟨Nat.le_add_right _ _, by omega⟩
      have hoffset := offsetIn_of_contains hsmall
        (fun t ht => eq_of_pairwise_not hapart.addresses hs ht haddress) hs haddress
      exact absurd ((leadsBack_iff hapart hs haddress).mp (hback _ _ hoffset)) (Nat.lt_irrefl _)
    · intro hsizes address offset hoffset
      obtain ⟨s, hs, haddress, rfl⟩ := exists_of_offsetIn hoffset
      have hle := UInt32.le_iff_toNat_le.mp (hsizes s hs)
      have hlt := haddress.2
      exact (leadsBack_iff hapart hs haddress).mpr (by omega)

/-- A section of code of some size in memory, which begins with the header of the managed part, and
a section of data. The raw data of the code are followed by those of the other section. -/
def codeAndData (codeSize : UInt32) : List Section :=
  [⟨codeSize, 0x2000, 0x200, 0x200⟩, ⟨0x10, 0x4000, 0x10, 0x400⟩]

/-- The words of some numbers, low bytes first. -/
def wordForms (words : List UInt32) : List UInt8 :=
  words.flatMap fun word => Bytes.digitsLE 4 word.toNat

/-- A section in the table of sections, without a name. -/
def sectionForm (s : Section) : List UInt8 :=
  List.replicate 8 0 ++ wordForms [s.virtualSize, s.virtualAddress, s.rawSize, s.rawPointer] ++
    List.replicate 16 0

/-- The file of an image with those two sections. -/
def codeAndDataFile (codeSize : UInt32) : Bytes :=
  ([0x4D, 0x5A] ++ List.replicate 58 0 ++ wordForms [0x40] ++
    [0x50, 0x45, 0, 0, 0x4C, 1, 2, 0] ++ List.replicate 12 0 ++ [0xE0, 0, 2, 0x21] ++
    [0x0B, 1] ++ List.replicate 34 0 ++ wordForms [0x200] ++ List.replicate 52 0 ++
    wordForms [16] ++ List.replicate 112 0 ++ wordForms [0x2000, 72] ++ List.replicate 8 0 ++
    (codeAndData codeSize).flatMap sectionForm ++ List.replicate 120 0 ++
    wordForms [72] ++ [2, 0, 5, 0] ++ wordForms [0x2048, 24] ++ List.replicate 56 0 ++
    [0x42, 0x53, 0x4A, 0x42, 1, 0, 1, 0, 0, 0, 0, 0, 4, 0, 0, 0, 0x76, 0x34, 0, 0, 0, 0, 0, 0] ++
    List.replicate 416 0 ++ List.replicate 16 0).toArray

theorem apart_codeAndData : Apart (codeAndData 0x1000) := by
  constructor
  · simp only [codeAndData, List.pairwise_cons, List.mem_singleton, forall_eq]
    refine ⟨fun address hcode hdata => ?_, nofun, List.Pairwise.nil⟩
    simp only [Section.Contains, UInt32.reduceToNat] at hcode hdata
    omega
  · simp only [codeAndData, List.pairwise_cons, List.mem_singleton, forall_eq]
    refine ⟨fun offset hcode hdata => ?_, nofun, List.Pairwise.nil⟩
    simp only [Section.Holds, UInt32.reduceToNat] at hcode hdata
    omega

/-- The file is that of an image, whose code is larger in memory than its raw data. -/
theorem exists_ofBytes_codeAndDataFile :
    ∃ image, ofBytes (codeAndDataFile 0x1000) = .ok image ∧
      image.sections = codeAndData 0x1000 := by
  have hread : (ofBytes (codeAndDataFile 0x1000)).toOption.map (·.sections) =
      some (codeAndData 0x1000) := by
    decide +kernel
  exact exists_ok_of_toOption_map hread

/-- The last byte of the code in the file leads back to its address. -/
theorem addressToOffset_leads_back_lastByte :
    ∃ image, ofBytes (codeAndDataFile 0x1000) = .ok image ∧ Apart image.sections ∧
      (∀ s ∈ image.sections, ¬ s.Overflows) ∧ image.addressToOffset 0x21FF = .ok 0x3FF ∧
      image.LeadsBack 0x21FF 0x3FF ∧
      ¬ ∀ address offset, image.addressToOffset address = .ok offset →
        image.LeadsBack address offset := by
  obtain ⟨image, himage, hsections⟩ := exists_ofBytes_codeAndDataFile
  have hapart : Apart image.sections := hsections ▸ apart_codeAndData
  have hsmall : ∀ s ∈ image.sections, ¬ s.Overflows := by
    rw [hsections]
    decide
  have hoffset : image.addressToOffset 0x21FF = .ok 0x3FF := by
    rw [addressToOffset, hsections]
    rfl
  obtain ⟨hleads, hall⟩ := addressToOffset_leads_back hapart
  obtain ⟨s, hs, haddress, -, hback, -⟩ := hleads _ _ hoffset
  refine ⟨image, himage, hapart, hsmall, hoffset, hback.mpr ?_, fun hevery => ?_⟩
  · rw [hsections] at hs
    obtain rfl | hdata := List.mem_cons.mp hs
    · decide
    · obtain rfl := List.mem_singleton.mp hdata
      exact absurd haddress (by decide)
  · have hsizes := (hall hsmall).mp hevery
    rw [hsections] at hsizes
    exact absurd hsizes (by decide)

/-- The first address of the code that is not in the file is translated to the first byte of the
data, which has another address. -/
theorem addressToOffset_meets_data :
    ∃ image, ofBytes (codeAndDataFile 0x1000) = .ok image ∧ Apart image.sections ∧
      image.addressToOffset 0x2200 = .ok 0x400 ∧ image.offsetToAddress 0x400 = .ok 0x4000 ∧
      ∀ s ∈ image.sections, s.Contains 0x2200 → ¬ s.Holds 0x400 := by
  obtain ⟨image, himage, hsections⟩ := exists_ofBytes_codeAndDataFile
  refine ⟨image, himage, hsections ▸ apart_codeAndData, ?_, ?_, ?_⟩
  · rw [addressToOffset, hsections]
    rfl
  · rw [offsetToAddress, hsections]
    rfl
  · rw [hsections]
    decide

end Image

end PortablePdb
