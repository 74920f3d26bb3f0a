import PortablePdb.Document.VirtualPath

namespace PortablePdb.VirtualPath

/-- What a character that does not count as a point becomes. -/
def replacement (c : Char) : Char :=
  if isKept c then c else '-'

theorem isKept_replacement (c : Char) : isKept (replacement c) = true := by
  unfold replacement
  split
  · assumption
  · decide

theorem replacement_ne_point (c : Char) : replacement c ≠ '.' := by
  intro hpoint
  have hkept := isKept_replacement c
  rw [hpoint] at hkept
  exact absurd hkept (by decide)

namespace Segments

/-- Whether a point counts as one: after a segment that is not empty, and has no point last. -/
def TakesPoint (segments : Segments) : Prop :=
  segments.current ≠ [] ∧ segments.current.getLast? ≠ some '.'

instance (segments : Segments) : Decidable segments.TakesPoint :=
  inferInstanceAs (Decidable (_ ∧ _))

/-- A character more ends the segment or is added to it if it is a point that counts as one, and
otherwise is added while there is room. -/
theorem add_eq (separateAtPoints : Bool) (segments : Segments) (c : Char) :
    segments.add separateAtPoints c =
      if c = '.' ∧ segments.TakesPoint then
        if separateAtPoints then { done := segments.done.push segments.current }
        else { segments with current := segments.current ++ ['.'], seen := segments.seen + 1 }
      else if segments.seen < maxSegment then
        { segments with current := segments.current ++ [replacement c], seen := segments.seen + 1 }
      else { segments with seen := segments.seen + 1 } := by
  have hpoint : isKept '.' = false := by decide
  by_cases hkept : isKept c = true
  · have hc : ¬ (c = '.' ∧ segments.TakesPoint) := fun hboth => by
      rw [hboth.1, hpoint] at hkept
      cases hkept
    rw [add, if_pos hkept, if_neg hc, replacement, if_pos hkept]
    rfl
  · by_cases hc : c = '.' ∧ segments.TakesPoint
    · obtain ⟨rfl, htakes⟩ := hc
      simp [add, hpoint, htakes, htakes.1, htakes.2]
    · have hdash : ¬ ((c = '.' && !segments.current.isEmpty &&
          segments.current.getLast? != some '.') = true) := by
        simpa [TakesPoint, and_assoc] using hc
      rw [add, if_neg hkept, if_neg hdash, if_neg hc]
      rw [replacement, if_neg hkept]
      rfl

end Segments

section Induction

variable {separateAtPoints : Bool} {P : List Char → Prop}

/-- The segments so far have a property, and the current one has at most the characters seen. -/
private structure Segments.All (P : List Char → Prop) (segments : Segments) : Prop where
  done : ∀ segment ∈ segments.done, P segment
  current : P segments.current
  length_le : segments.current.length ≤ segments.seen

private theorem Segments.All.add {segments : Segments} (hall : segments.All P) (hnil : P [])
    (hpush : ∀ segment c, segment.length < maxSegment → P segment → P (segment ++ [replacement c]))
    (hpoint : separateAtPoints = false → ∀ segment, segment ≠ [] → P segment →
      P (segment ++ ['.'])) (c : Char) : (segments.add separateAtPoints c).All P := by
  obtain ⟨hdone, hcurrent, hlength⟩ := hall
  have hlonger (d : Char) : (segments.current ++ [d]).length ≤ segments.seen + 1 := by
    rw [List.length_append, List.length_singleton]
    omega
  rw [add_eq]
  split
  · next hc =>
    cases separateAtPoints with
    | true =>
      refine ⟨fun segment hsegment => ?_, hnil, Nat.zero_le _⟩
      obtain hsegment | rfl := Array.mem_push.mp hsegment
      · exact hdone segment hsegment
      · exact hcurrent
    | false => exact ⟨hdone, hpoint rfl _ hc.2.1 hcurrent, hlonger _⟩
  · split
    · next hroom => exact ⟨hdone, hpush _ c (by omega) hcurrent, hlonger _⟩
    · exact ⟨hdone, hcurrent, by simp only; omega⟩

/-- What holds of the empty segment and is kept by one character more holds of all segments. A
segment has room for a character that is not a point, and has none to be ended by a point if points
separate. -/
theorem segmentsOf_induction {text : List Char} (hnil : P [])
    (hpush : ∀ segment c, segment.length < maxSegment → P segment → P (segment ++ [replacement c]))
    (hpoint : separateAtPoints = false → ∀ segment, segment ≠ [] → P segment →
      P (segment ++ ['.'])) :
    ∀ segment ∈ segmentsOf separateAtPoints text, P segment := by
  have hfold (segments : Segments) (hall : segments.All P) :
      (text.foldl (Segments.add separateAtPoints) segments).All P := by
    induction text generalizing segments with
    | nil => exact hall
    | cons c cs ih => exact ih _ (hall.add hnil hpush hpoint c)
  obtain ⟨hdone, hcurrent, -⟩ := hfold {} ⟨by simp, hnil, Nat.le_refl _⟩
  intro segment hsegment
  simp only [segmentsOf, Segments.toList] at hsegment
  split at hsegment
  · exact hdone segment (Array.mem_toList_iff.mp hsegment)
  · obtain hsegment | hsegment := List.mem_append.mp hsegment
    · exact hdone segment (Array.mem_toList_iff.mp hsegment)
    · rwa [List.mem_singleton.mp hsegment]

/-- A name that a file system allows, and that leads nowhere but to an entry of its directory. -/
structure IsSafe (name : List Char) : Prop where
  ne_nil : name ≠ []
  allowed : ∀ c ∈ name, Text.isAlphanumeric c = true ∨ c = '-' ∨ c = '_' ∨ c = '.'
  head?_ne : name.head? ≠ some '.'

theorem IsSafe.append {name more : List Char} (hname : IsSafe name)
    (hmore : ∀ c ∈ more, isKept c = true ∨ c = '.') : IsSafe (name ++ more) where
  ne_nil := List.append_ne_nil_of_left_ne_nil hname.ne_nil more
  allowed c hc := by
    obtain hc | hc := List.mem_append.mp hc
    · exact hname.allowed c hc
    · simpa [isKept, or_assoc] using hmore c hc
  head?_ne := by
    obtain ⟨c, rest, rfl⟩ := List.exists_cons_of_ne_nil hname.ne_nil
    exact hname.head?_ne

theorem isSafe_singleton {c : Char} (hc : isKept c = true) : IsSafe [c] where
  ne_nil := List.cons_ne_nil c []
  allowed d hd := by
    rw [List.mem_singleton.mp hd]
    simpa [isKept, or_assoc] using Or.inl hc
  head?_ne hpoint := by
    cases hpoint
    exact absurd hc (by decide)

/-- A segment is safe unless it is empty. -/
theorem isSafe_of_mem_segmentsOf {text segment : List Char}
    (hsegment : segment ∈ segmentsOf separateAtPoints text) : segment = [] ∨ IsSafe segment := by
  refine segmentsOf_induction (P := fun segment => segment = [] ∨ IsSafe segment) (Or.inl rfl)
    (fun segment c _ hsafe => Or.inr ?_) (fun _ segment hne hsafe => Or.inr ?_) segment hsegment
  · have hc := isKept_replacement c
    obtain rfl | hsafe := hsafe
    · exact isSafe_singleton hc
    · exact hsafe.append fun d hd => Or.inl (List.mem_singleton.mp hd ▸ hc)
  · exact (hsafe.resolve_left hne).append fun d hd => Or.inr (List.mem_singleton.mp hd)

/-- No segment holds a point where points separate. -/
theorem point_notMem_of_mem_segmentsOf {text segment : List Char}
    (hsegment : segment ∈ segmentsOf true text) : '.' ∉ segment := by
  refine segmentsOf_induction (P := fun segment => '.' ∉ segment) List.not_mem_nil
    (fun segment c _ hpoint hmem => ?_) (fun hseparate : true = false => nomatch hseparate) segment
    hsegment
  obtain hmem | hmem := List.mem_append.mp hmem
  · exact hpoint hmem
  · exact replacement_ne_point c (List.mem_singleton.mp hmem).symm

/-- No segment is longer than the longest part of a path where points separate. -/
theorem length_le_of_mem_segmentsOf {text segment : List Char}
    (hsegment : segment ∈ segmentsOf true text) : segment.length ≤ maxSegment := by
  refine segmentsOf_induction (P := fun segment => segment.length ≤ maxSegment) (Nat.zero_le _)
    (fun segment c hlt _ => ?_) (fun hseparate : true = false => nomatch hseparate) segment
    hsegment
  rw [List.length_append, List.length_singleton]
  exact hlt

end Induction

section Whole

/-- The segment of a name that is not separated at its points. -/
def whole (text : List Char) : List Char :=
  (text.foldl (Segments.add false) {}).current

namespace Segments

variable {segments : Segments} {text : List Char}

/-- One character more where points do not separate. -/
theorem current_add (segments : Segments) (c : Char) :
    (segments.add false c).current = segments.current ++
      if c = '.' ∧ segments.TakesPoint then ['.']
      else if segments.seen < maxSegment then [replacement c] else [] := by
  rw [add_eq]
  split
  · rfl
  · split
    · rfl
    · exact (List.append_nil _).symm

theorem seen_add (segments : Segments) (c : Char) :
    (segments.add false c).seen = segments.seen + 1 := by
  rw [add_eq]
  split
  · rfl
  · split <;> rfl

theorem done_foldl_add (text : List Char) (segments : Segments) :
    (text.foldl (add false) segments).done = segments.done := by
  induction text generalizing segments with
  | nil => rfl
  | cons c cs ih =>
    rw [List.foldl_cons, ih, add_eq]
    split
    · rfl
    · split <;> rfl

theorem seen_foldl_add (text : List Char) (segments : Segments) :
    (text.foldl (add false) segments).seen = segments.seen + text.length := by
  induction text generalizing segments with
  | nil => rfl
  | cons c cs ih =>
    rw [List.foldl_cons, ih, seen_add, List.length_cons]
    omega

theorem prefix_foldl_add (text : List Char) (segments : Segments) :
    segments.current <+: (text.foldl (add false) segments).current := by
  induction text generalizing segments with
  | nil => exact List.prefix_rfl
  | cons c cs ih =>
    refine List.IsPrefix.trans ?_ (ih _)
    rw [current_add]
    exact List.prefix_append _ _

/-- Every character adds one to a segment that has room for all of them. -/
theorem length_foldl_add (hroom : segments.seen + text.length ≤ maxSegment) :
    (text.foldl (add false) segments).current.length = segments.current.length + text.length := by
  induction text generalizing segments with
  | nil => rfl
  | cons c cs ih =>
    rw [List.length_cons] at hroom
    rw [List.foldl_cons, ih (by rw [seen_add]; omega), current_add, List.length_append,
      if_pos (show segments.seen < maxSegment by omega), List.length_cons]
    split <;> simp only [List.length_singleton] <;> omega

/-- To a segment without room only a point that counts as one is added. -/
theorem current_foldl_add_of_full (hfull : maxSegment ≤ segments.seen) :
    (text.foldl (add false) segments).current =
      segments.current ++ if '.' ∈ text ∧ segments.TakesPoint then ['.'] else [] := by
  induction text generalizing segments with
  | nil => simp
  | cons c cs ih =>
    have hcurrent := current_add segments c
    rw [if_neg (Nat.not_lt.mpr hfull)] at hcurrent
    rw [List.foldl_cons, ih (by rw [seen_add]; omega)]
    by_cases hc : c = '.' ∧ segments.TakesPoint
    · -- The point is last now, so that no other one counts.
      rw [if_pos hc] at hcurrent
      have hlast : ¬ (segments.add false c).TakesPoint := fun htakes =>
        htakes.2 (by rw [hcurrent]; exact List.getLast?_concat)
      rw [hcurrent, if_neg fun hboth => hlast hboth.2,
        if_pos ⟨hc.1 ▸ List.mem_cons_self, hc.2⟩, List.append_nil]
    · rw [if_neg hc, List.append_nil] at hcurrent
      have hsame : (segments.add false c).TakesPoint ↔ segments.TakesPoint := by
        rw [TakesPoint, hcurrent, TakesPoint]
      have hmem : ('.' ∈ c :: cs ∧ segments.TakesPoint) ↔ ('.' ∈ cs ∧ segments.TakesPoint) := by
        rw [List.mem_cons]
        constructor
        · rintro ⟨rfl | hmem, htakes⟩
          · exact absurd ⟨rfl, htakes⟩ hc
          · exact ⟨hmem, htakes⟩
        · exact fun hboth => ⟨Or.inr hboth.1, hboth.2⟩
      simp only [hcurrent, hsame, hmem]

/-- Without points, characters are added as they stand in paths, up to the longest part. -/
theorem current_foldl_add_of_notMem (hpoint : '.' ∉ text) :
    (text.foldl (add false) segments).current =
      segments.current ++ (text.map replacement).take (maxSegment - segments.seen) := by
  induction text generalizing segments with
  | nil => simp
  | cons c cs ih =>
    have hc : ¬ (c = '.' ∧ segments.TakesPoint) := fun hboth =>
      List.ne_of_not_mem_cons hpoint hboth.1.symm
    rw [List.foldl_cons, ih (List.not_mem_of_not_mem_cons hpoint), current_add, if_neg hc, seen_add,
      List.append_assoc, List.map_cons]
    congr 1
    split
    · next hroom =>
      rw [show maxSegment - segments.seen = maxSegment - (segments.seen + 1) + 1 by omega,
        List.take_succ_cons, List.singleton_append]
    · next hfull =>
      rw [show maxSegment - segments.seen = 0 by omega,
        show maxSegment - (segments.seen + 1) = 0 by omega]
      rfl

end Segments

theorem segmentsOf_false (text : List Char) : segmentsOf false text = [whole text] := by
  simp [segmentsOf, Segments.toList, Segments.done_foldl_add, whole]

/-- Each of the first characters of a name adds one to its segment. -/
theorem length_whole_take (text : List Char) :
    (whole (text.take maxSegment)).length = min maxSegment text.length := by
  have hroom : 0 + (text.take maxSegment).length ≤ maxSegment := by
    rw [Nat.zero_add, List.length_take]
    exact Nat.min_le_left _ _
  rw [whole, Segments.length_foldl_add hroom, List.length_take, List.length_nil, Nat.zero_add]

/-- Whether a name has a point behind its first characters that its segment takes on. -/
def Overruns (text : List Char) : Prop :=
  '.' ∈ text.drop maxSegment ∧ (whole (text.take maxSegment)).getLast? ≠ some '.'

instance (text : List Char) : Decidable (Overruns text) :=
  inferInstanceAs (Decidable (_ ∧ _))

theorem Overruns.lt_length {text : List Char} (hover : Overruns text) :
    maxSegment < text.length := by
  have hpos := List.length_pos_of_mem hover.1
  rw [List.length_drop] at hpos
  omega

/-- A name is cut after its first characters, but takes on a point that comes later. -/
theorem whole_eq (text : List Char) :
    whole text = whole (text.take maxSegment) ++ if Overruns text then ['.'] else [] := by
  have hlength := length_whole_take text
  by_cases hlong : maxSegment ≤ text.length
  · have hseen := Segments.seen_foldl_add (text.take maxSegment) {}
    rw [List.length_take, Nat.min_eq_left hlong, Nat.zero_add] at hseen
    rw [Nat.min_eq_left hlong] at hlength
    have hne : whole (text.take maxSegment) ≠ [] := List.ne_nil_of_length_pos (by
      rw [hlength]
      decide)
    have htakes : ((text.take maxSegment).foldl (Segments.add false) {}).TakesPoint ↔
        (whole (text.take maxSegment)).getLast? ≠ some '.' := and_iff_right hne
    have hrest := @Segments.current_foldl_add_of_full _ (text.drop maxSegment)
      (Nat.le_of_eq hseen.symm)
    rw [← List.foldl_append, List.take_append_drop] at hrest
    rw [whole, hrest]
    simp only [htakes, Overruns]
    rfl
  · have hall : text.take maxSegment = text := List.take_of_length_le (Nat.le_of_not_le hlong)
    have hrest : text.drop maxSegment = [] := List.drop_of_length_le (Nat.le_of_not_le hlong)
    rw [if_neg (by simp [Overruns, hrest]), hall, List.append_nil]

/-- The segment of a name has at most one character more than the longest part of a path, and has
it exactly if the name overruns. -/
theorem length_whole (text : List Char) :
    (whole text).length ≤ maxSegment + 1 ∧
      (maxSegment < (whole text).length ↔ Overruns text) := by
  have hlength := length_whole_take text
  rw [whole_eq text]
  by_cases hover : Overruns text
  · have hlong := Nat.le_of_lt hover.lt_length
    rw [if_pos hover, List.length_append, hlength, Nat.min_eq_left hlong]
    exact ⟨Nat.le_refl _, iff_of_true (Nat.lt_succ_self _) hover⟩
  · rw [if_neg hover, List.append_nil, hlength]
    exact ⟨by omega, iff_of_false (by omega) hover⟩

/-- What stands before the first point of a name stands before the first one of its segment. -/
theorem whole_append_point {before : List Char} (hne : before ≠ []) (hpoint : '.' ∉ before)
    (after : List Char) :
    ∃ more, whole (before ++ '.' :: after) =
      (before.map replacement).take maxSegment ++ '.' :: more := by
  have hbefore : whole before = (before.map replacement).take maxSegment :=
    Segments.current_foldl_add_of_notMem hpoint
  have htakes : (before.foldl (Segments.add false) {}).TakesPoint := by
    change whole before ≠ [] ∧ (whole before).getLast? ≠ some '.'
    rw [hbefore]
    refine ⟨by simp [hne, maxSegment], fun hlast => ?_⟩
    obtain ⟨c, _, hc⟩ := List.mem_map.mp (List.mem_of_mem_take (List.mem_of_getLast? hlast))
    exact replacement_ne_point c hc
  have hadd := Segments.current_add (before.foldl (Segments.add false) {}) '.'
  rw [if_pos ⟨rfl, htakes⟩] at hadd
  obtain ⟨more, hmore⟩ := Segments.prefix_foldl_add after
    ((before.foldl (Segments.add false) {}).add false '.')
  refine ⟨more, ?_⟩
  rw [whole, List.foldl_append, List.foldl_cons, ← hmore, hadd, ← hbefore, whole]
  simp

theorem whole_of_notMem {text : List Char} (hpoint : '.' ∉ text) : '.' ∉ whole text := by
  rw [whole, Segments.current_foldl_add_of_notMem hpoint]
  intro hmem
  obtain ⟨c, _, hc⟩ := List.mem_map.mp (List.mem_of_mem_take (by simpa using hmem))
  exact replacement_ne_point c hc

end Whole

end PortablePdb.VirtualPath
