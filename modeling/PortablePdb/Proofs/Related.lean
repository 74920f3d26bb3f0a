import Mathlib.Data.List.Forall2
import PortablePdb.Proofs.Reading

namespace PortablePdb

variable {α β : Type} {R : α → β → Prop} {xs : List α} {ys : List β}

theorem exists_of_forall₂ (hall : List.Forall₂ R xs ys) {x : α} (hx : x ∈ xs) :
    ∃ y ∈ ys, R x y := by
  induction hall with
  | nil => cases hx
  | @cons first second _ _ hfirst _ ih =>
    rcases List.mem_cons.mp hx with rfl | hx
    · exact ⟨second, List.mem_cons_self, hfirst⟩
    · obtain ⟨y, hy, hrest⟩ := ih hx
      exact ⟨y, List.mem_cons_of_mem _ hy, hrest⟩

/-- Related arrays have related elements at each place. -/
theorem exists_getElem?_of_forall₂ {xs : Array α} {ys : Array β}
    (hall : List.Forall₂ R xs.toList ys.toList) {i : Nat} {x : α} (hx : xs[i]? = some x) :
    ∃ y, ys[i]? = some y ∧ R x y := by
  obtain ⟨hi, rfl⟩ := Array.getElem?_eq_some_iff.mp hx
  have hlt : i < ys.size := by
    have hlength : xs.size = ys.size := hall.length_eq
    rwa [← hlength]
  exact ⟨ys[i], Array.getElem?_eq_getElem hlt, by simpa using hall.get hi hlt⟩

theorem forall₂_trans {γ : Type} {S : β → γ → Prop} {T : α → γ → Prop} {zs : List γ}
    (hxs : List.Forall₂ R xs ys) (hys : List.Forall₂ S ys zs)
    (htrans : ∀ a b c, R a b → S b c → T a c) : List.Forall₂ T xs zs := by
  induction hxs generalizing zs with
  | nil =>
    cases hys
    exact .nil
  | cons hab _ ih =>
    obtain _ | ⟨hbc, hys⟩ := hys
    exact .cons (htrans _ _ _ hab hbc) (ih hys)

/-- What holds along a list holds along a related one. -/
theorem pairwise_of_forall₂ {S : α → α → Prop} {S' : β → β → Prop} (hxs : List.Forall₂ R xs ys)
    (hys : ys.Pairwise S') (hrelated : ∀ a b a' b', R a b → R a' b' → S' b b' → S a a') :
    xs.Pairwise S := by
  induction hxs with
  | nil => exact .nil
  | @cons a b xs ys hab hxs ih =>
    obtain ⟨hhead, htail⟩ := List.pairwise_cons.mp hys
    refine List.pairwise_cons.mpr ⟨?_, ih htail⟩
    intro a' ha'
    obtain ⟨b', hb', hab'⟩ := exists_of_forall₂ hxs ha'
    exact hrelated a b a' b' hab hab' (hhead b' hb')

/-- Related lists that are sorted alike stay related. -/
theorem forall₂_mergeSort {r : α → α → Bool} {s : β → β → Bool} (hxs : List.Forall₂ R xs ys)
    (hsame : ∀ a b a' b', R a b → R a' b' → r a a' = s b b') :
    List.Forall₂ R (xs.mergeSort r) (ys.mergeSort s) := by
  have hlength := hxs.length_eq
  have hrelated : ∀ pair ∈ xs.zip ys, R pair.1 pair.2 := fun pair hpair =>
    List.forall₂_zip hxs hpair
  have hfst := List.map_mergeSort (l := xs.zip ys) (f := Prod.fst) (s := r)
    (r := fun a b => r a.1 b.1) fun _ _ _ _ => rfl
  have hsnd := List.map_mergeSort (l := xs.zip ys) (f := Prod.snd) (s := s)
    (r := fun a b => r a.1 b.1) fun a ha b hb => hsame _ _ _ _ (hrelated a ha) (hrelated b hb)
  rw [List.map_fst_zip (Nat.le_of_eq hlength)] at hfst
  rw [List.map_snd_zip (Nat.le_of_eq hlength.symm)] at hsnd
  rw [← hfst, ← hsnd, List.forall₂_map_left_iff, List.forall₂_map_right_iff, List.forall₂_same]
  intro pair hpair
  exact hrelated pair ((List.mergeSort_perm _ _).mem_iff.mp hpair)

theorem forall₂_of_list_mapM {ε : Type} {f : α → Except ε β} (hys : xs.mapM f = .ok ys) :
    List.Forall₂ (fun x y => f x = .ok y) xs ys := by
  induction xs generalizing ys with
  | nil =>
    cases hys
    exact .nil
  | cons x xs ih =>
    rw [List.mapM_cons] at hys
    obtain ⟨y, hy, hys⟩ := bind_eq_ok_iff.mp hys
    obtain ⟨rest, hrest, hys⟩ := bind_eq_ok_iff.mp hys
    rw [← pure_eq_ok_iff.mp hys]
    exact .cons hy (ih hrest)

theorem forall₂_of_array_mapM {ε : Type} {f : α → Except ε β} {xs : Array α} {ys : Array β}
    (hys : xs.mapM f = .ok ys) :
    List.Forall₂ (fun x y => f x = .ok y) xs.toList ys.toList := by
  rw [Array.mapM_eq_mapM_toList, map_eq_pure_bind] at hys
  obtain ⟨list, hlist, hys⟩ := bind_eq_ok_iff.mp hys
  rw [← pure_eq_ok_iff.mp hys]
  exact forall₂_of_list_mapM hlist

end PortablePdb
