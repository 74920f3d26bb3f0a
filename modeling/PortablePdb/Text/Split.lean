namespace PortablePdb.Text

/-- The parts of a text between the places where a separator stands; there is at least one. -/
def split (separator : Char) : List Char → List (List Char)
  | [] => [[]]
  | c :: cs =>
    if c = separator then [] :: split separator cs
    else
      match split separator cs with
      | part :: parts => (c :: part) :: parts
      | [] => [[c]]

/-- Parts with a separator between each two. -/
def join (separator : Char) : List (List Char) → List Char
  | [] => []
  | [part] => part
  | part :: next :: parts => part ++ separator :: join separator (next :: parts)

theorem split_cons_self (separator : Char) (cs : List Char) :
    split separator (separator :: cs) = [] :: split separator cs :=
  if_pos rfl

theorem split_cons_of_ne {separator c : Char} (hc : c ≠ separator) {cs part : List Char}
    {parts : List (List Char)} (hsplit : split separator cs = part :: parts) :
    split separator (c :: cs) = (c :: part) :: parts := by
  rw [split, if_neg hc, hsplit]

theorem exists_split (separator : Char) (cs : List Char) :
    ∃ part parts, split separator cs = part :: parts := by
  induction cs with
  | nil => exact ⟨[], [], rfl⟩
  | cons c cs ih =>
    obtain ⟨part, parts, hsplit⟩ := ih
    by_cases hc : c = separator
    · exact ⟨[], part :: parts, by rw [hc, split_cons_self, hsplit]⟩
    · exact ⟨c :: part, parts, split_cons_of_ne hc hsplit⟩

theorem join_cons_cons (separator : Char) (part next : List Char) (parts : List (List Char)) :
    join separator (part :: next :: parts) = part ++ separator :: join separator (next :: parts) :=
  rfl

theorem join_split (separator : Char) (cs : List Char) :
    join separator (split separator cs) = cs := by
  induction cs with
  | nil => rfl
  | cons c cs ih =>
    obtain ⟨part, parts, hsplit⟩ := exists_split separator cs
    rw [hsplit] at ih
    by_cases hc : c = separator
    · rw [hc, split_cons_self, hsplit, join_cons_cons, ih, List.nil_append]
    · rw [split_cons_of_ne hc hsplit, ← ih]
      cases parts with
      | nil => rfl
      | cons next parts => rfl

theorem length_split (separator : Char) (cs : List Char) :
    (split separator cs).length = cs.count separator + 1 := by
  induction cs with
  | nil => rfl
  | cons c cs ih =>
    obtain ⟨part, parts, hsplit⟩ := exists_split separator cs
    by_cases hc : c = separator
    · rw [hc, split_cons_self, List.count_cons_self, List.length_cons, ih]
    · rw [split_cons_of_ne hc hsplit, List.count_cons_of_ne hc, ← ih, hsplit]
      rfl

theorem split_of_notMem {separator : Char} {part : List Char} (hpart : separator ∉ part) :
    split separator part = [part] := by
  induction part with
  | nil => rfl
  | cons c cs ih =>
    exact split_cons_of_ne (List.ne_of_not_mem_cons hpart).symm
      (ih (List.not_mem_of_not_mem_cons hpart))

theorem split_append {separator : Char} {part : List Char} (hpart : separator ∉ part)
    (rest : List Char) : split separator (part ++ separator :: rest) =
      part :: split separator rest := by
  induction part with
  | nil => exact split_cons_self separator rest
  | cons c cs ih =>
    exact split_cons_of_ne (List.ne_of_not_mem_cons hpart).symm
      (ih (List.not_mem_of_not_mem_cons hpart))

theorem notMem_of_mem_split {separator : Char} {cs part : List Char}
    (hpart : part ∈ split separator cs) : separator ∉ part := by
  induction cs generalizing part with
  | nil =>
    rw [List.mem_singleton.mp hpart]
    exact List.not_mem_nil
  | cons c cs ih =>
    obtain ⟨first, parts, hsplit⟩ := exists_split separator cs
    rw [hsplit] at ih
    by_cases hc : c = separator
    · rw [hc, split_cons_self, hsplit] at hpart
      rcases List.mem_cons.mp hpart with rfl | hrest
      · exact List.not_mem_nil
      · exact ih hrest
    · rw [split_cons_of_ne hc hsplit] at hpart
      rcases List.mem_cons.mp hpart with rfl | hrest
      · exact List.not_mem_cons_of_ne_of_not_mem (Ne.symm hc) (ih List.mem_cons_self)
      · exact ih (List.mem_cons_of_mem first hrest)

/-- Parts that each end with the separator are split off one after the other. -/
theorem split_flatMap_append {separator : Char} {parts : List (List Char)}
    (hparts : ∀ part ∈ parts, separator ∉ part) (rest : List Char) :
    split separator (parts.flatMap (· ++ [separator]) ++ rest) =
      parts ++ split separator rest := by
  induction parts with
  | nil => rfl
  | cons part parts ih =>
    obtain ⟨hpart, hothers⟩ := List.forall_mem_cons.mp hparts
    rw [List.flatMap_cons, List.append_assoc, List.append_assoc, List.singleton_append,
      split_append hpart, ih hothers, List.cons_append]

theorem split_join {separator : Char} {parts : List (List Char)} (hne : parts ≠ [])
    (hparts : ∀ part ∈ parts, separator ∉ part) :
    split separator (join separator parts) = parts := by
  induction parts with
  | nil => exact absurd rfl hne
  | cons part parts ih =>
    have hpart := hparts part List.mem_cons_self
    cases parts with
    | nil => exact split_of_notMem hpart
    | cons next parts =>
      have hrest := ih (List.cons_ne_nil _ _) fun other hother =>
        hparts other (List.mem_cons_of_mem part hother)
      rw [join_cons_cons, split_append hpart, hrest]

theorem join_concat {separator : Char} {parts : List (List Char)} (hne : parts ≠ [])
    (last : List Char) :
    join separator (parts ++ [last]) = join separator parts ++ separator :: last := by
  induction parts with
  | nil => exact absurd rfl hne
  | cons part parts ih =>
    cases parts with
    | nil => rfl
    | cons next parts =>
      have hrest := ih (List.cons_ne_nil _ _)
      rw [List.cons_append] at hrest
      rw [List.cons_append, List.cons_append, join_cons_cons, hrest, join_cons_cons,
        List.append_assoc, List.cons_append]

end PortablePdb.Text
