import PortablePdb.Proofs.Segments

namespace PortablePdb.VirtualPath

/-- The parts of a path. -/
def components (path : String) : List (List Char) :=
  Text.split '/' path.toList

/-- The name of a segment. An empty one is written as a hyphen. -/
def nameOf (segment : List Char) : List Char :=
  if segment.isEmpty then ['-'] else segment

/-- A name, with a mark at its end if it stands for a device. -/
def mark (name : List Char) : List Char :=
  if isDevice name then name ++ ['_'] else name

/-- What the names of files end with. -/
def extension : List Char :=
  ['.', 'c', 's']

/-- The names of the directories of a type, without marks. -/
def directoryNames (nested : Bool) (namespaceName : String) : List (List Char) :=
  if namespaceName.isEmpty then []
  else (segmentsOf nested (significant namespaceName.toList)).map nameOf

/-- The name of the file of a type, without a mark and without the extension. -/
def fileName (typeName : String) : List Char :=
  nameOf (whole (significant typeName.toList))

theorem escape_eq (segment : List Char) : escape segment = mark (nameOf segment) := by
  unfold escape nameOf
  split <;> rfl

theorem length_directoryNames_le (namespaceName : String) :
    (directoryNames false namespaceName).length ≤ 1 := by
  unfold directoryNames
  split
  · exact Nat.zero_le 1
  · rw [segmentsOf_false]
    exact Nat.le_refl 1

section Safety

theorem IsSafe.slash_notMem {name : List Char} (hname : IsSafe name) : '/' ∉ name := by
  intro hslash
  have hallowed := hname.allowed '/' hslash
  revert hallowed
  decide

theorem IsSafe.mark {name : List Char} (hname : IsSafe name) : IsSafe (mark name) := by
  unfold VirtualPath.mark
  split
  · exact hname.append (List.forall_mem_singleton.mpr (Or.inl (by decide)))
  · exact hname

theorem IsSafe.extension {name : List Char} (hname : IsSafe name) :
    IsSafe (name ++ extension) := by
  refine hname.append fun c hc => ?_
  simp only [VirtualPath.extension, List.mem_cons, List.not_mem_nil, or_false] at hc
  obtain rfl | rfl | rfl := hc
  · exact Or.inr rfl
  · exact Or.inl (by decide)
  · exact Or.inl (by decide)

theorem isSafe_nameOf {separateAtPoints : Bool} {text segment : List Char}
    (hsegment : segment ∈ segmentsOf separateAtPoints text) : IsSafe (nameOf segment) := by
  unfold nameOf
  split
  · exact isSafe_singleton (by decide)
  · next hne =>
    refine (isSafe_of_mem_segmentsOf hsegment).resolve_left fun hnil => hne ?_
    rw [hnil]
    rfl

theorem isSafe_directoryNames {nested : Bool} {namespaceName : String} {name : List Char}
    (hname : name ∈ directoryNames nested namespaceName) : IsSafe name := by
  unfold directoryNames at hname
  split at hname
  · cases hname
  · obtain ⟨segment, hsegment, rfl⟩ := List.mem_map.mp hname
    exact isSafe_nameOf hsegment

theorem isSafe_fileName (typeName : String) : IsSafe (fileName typeName) := by
  have hmem : whole (significant typeName.toList) ∈
      segmentsOf false (significant typeName.toList) := by
    rw [segmentsOf_false]
    exact List.mem_singleton_self _
  exact isSafe_nameOf hmem

theorem point_notMem_mark {name : List Char} (hpoint : '.' ∉ name) : '.' ∉ mark name := by
  unfold mark
  split
  · simpa using hpoint
  · exact hpoint

theorem point_notMem_directoryNames {namespaceName : String} {name : List Char}
    (hname : name ∈ directoryNames true namespaceName) : '.' ∉ name := by
  unfold directoryNames at hname
  split at hname
  · cases hname
  · obtain ⟨segment, hsegment, rfl⟩ := List.mem_map.mp hname
    unfold nameOf
    split
    · decide
    · exact point_notMem_of_mem_segmentsOf hsegment

end Safety

section Components

theorem segmentsOf_ne_nil (separateAtPoints : Bool) (text : List Char) :
    segmentsOf separateAtPoints text ≠ [] := by
  unfold segmentsOf Segments.toList
  split
  · next hdone =>
    intro hnil
    simp [Array.toList_eq_nil_iff.mp hnil] at hdone
  · exact List.append_ne_nil_of_right_ne_nil _ (List.cons_ne_nil _ _)

theorem clean_eq (separateAtPoints : Bool) (text : List Char) :
    clean separateAtPoints text =
      Text.join '/' (((segmentsOf separateAtPoints (significant text)).map nameOf).map mark) := by
  rw [clean, List.map_map]
  exact congrArg (Text.join '/') (List.map_congr_left fun segment _ => escape_eq segment)

/-- The parts of the path of a type are the names of its directories and of its file, with their
marks and the extension. -/
theorem components_ofType (nested : Bool) (namespaceName typeName : String) :
    components (ofType nested namespaceName typeName) =
      (directoryNames nested namespaceName).map mark ++
        [mark (fileName typeName) ++ extension] := by
  have hpath : (ofType nested namespaceName typeName).toList = Text.join '/'
      ((directoryNames nested namespaceName).map mark ++
        [mark (fileName typeName) ++ extension]) := by
    have hfile : clean false typeName.toList = mark (fileName typeName) := by
      rw [clean_eq, segmentsOf_false]
      rfl
    by_cases hempty : namespaceName.isEmpty = true
    · simp only [ofType, directoryNames, if_pos hempty, String.toList_ofList, hfile]
      rfl
    · have hne := segmentsOf_ne_nil nested (significant namespaceName.toList)
      rw [ofType, directoryNames, if_neg hempty, if_neg hempty, String.toList_ofList,
        Text.join_concat (by simpa using hne), clean_eq, hfile]
      rfl
  rw [components, hpath]
  refine Text.split_join (List.append_ne_nil_of_right_ne_nil _ (List.cons_ne_nil _ _)) ?_
  intro part hpart
  obtain hpart | hpart := List.mem_append.mp hpart
  · obtain ⟨name, hname, rfl⟩ := List.mem_map.mp hpart
    exact (isSafe_directoryNames hname).mark.slash_notMem
  · rw [List.mem_singleton.mp hpart]
    exact (isSafe_fileName typeName).mark.extension.slash_notMem

/-- All parts of the path of a type are safe, so that the path leads to a place below the one where
it starts. The last part is the name of a source file. The others hold no point if every point of
the namespace starts a directory, and otherwise there is one at most. -/
theorem ofType_isSafe (nested : Bool) (namespaceName typeName : String) :
    ∃ directories file,
      components (ofType nested namespaceName typeName) = directories ++ [file] ∧
      (∀ part ∈ directories ++ [file], IsSafe part) ∧ extension <:+ file ∧
      (nested = true → ∀ directory ∈ directories, '.' ∉ directory) ∧
      (nested = false → directories.length ≤ 1) := by
  refine ⟨_, _, components_ofType nested namespaceName typeName, fun part hpart => ?_,
    List.suffix_append _ _, fun hnested directory hdirectory => ?_, fun hnested => ?_⟩
  · obtain hpart | hpart := List.mem_append.mp hpart
    · obtain ⟨name, hname, rfl⟩ := List.mem_map.mp hpart
      exact (isSafe_directoryNames hname).mark
    · rw [List.mem_singleton.mp hpart]
      exact (isSafe_fileName typeName).mark.extension
  · subst hnested
    obtain ⟨name, hname, rfl⟩ := List.mem_map.mp hdirectory
    exact point_notMem_mark (point_notMem_directoryNames hname)
  · subst hnested
    rw [List.length_map]
    exact length_directoryNames_le namespaceName

end Components

section Devices

theorem stem_of_notMem {name : List Char} (hpoint : '.' ∉ name) : stem name = name := by
  have hall : ∀ c ∈ name, (c != '.') = true := fun c hc =>
    bne_iff_ne.mpr fun heq => hpoint (heq ▸ hc)
  have hstem := @List.takeWhile_append_of_pos _ _ _ [] hall
  rw [stem]
  simpa using hstem

theorem stem_append_point (name rest : List Char) : stem (name ++ '.' :: rest) = stem name := by
  induction name with
  | nil => rfl
  | cons c cs ih =>
    simp only [stem, List.cons_append, List.takeWhile_cons] at ih ⊢
    rw [ih]

/-- Only what stands before the first point of a name tells whether it stands for a device. -/
theorem isDevice_congr {name other : List Char} (hstem : stem name = stem other) :
    isDevice name = isDevice other := by
  rw [isDevice, hstem, isDevice]

theorem isDevice_append_extension (name : List Char) :
    isDevice (name ++ extension) = isDevice name :=
  isDevice_congr (stem_append_point name ['c', 's'])

theorem chars_of_mem_deviceNames : ∀ device ∈ deviceNames, device.toList.length ≤ 4 ∧
    device.toList.all (fun c => c.isUpper || c.isDigit) = true := by
  decide

theorem isAlphanum_of_toUpper {c : Char} (hc : (c.toUpper.isUpper || c.toUpper.isDigit) = true) :
    c.isAlphanum = true := by
  have halphanum : c.isAlphanum = (c.isUpper || c.isLower || c.isDigit) := rfl
  rw [halphanum]
  by_cases hlower : c.isLower = true
  · rw [hlower, Bool.or_true, Bool.true_or]
  · have hsame : c.toUpper = c := dif_neg fun hrange =>
      hlower (Bool.and_eq_true_iff.mpr ⟨decide_eq_true hrange.1, decide_eq_true hrange.2⟩)
    rw [hsame] at hc
    simp only [Bool.or_eq_true] at hc ⊢
    exact hc.imp_left Or.inl

/-- The stem of a name for a device is short, and has no characters but letters and digits. -/
theorem stem_of_isDevice {name : List Char} (hdevice : isDevice name = true) :
    (stem name).length ≤ 4 ∧ ∀ c ∈ stem name, c.isAlphanum = true := by
  obtain ⟨device, hmem, hstem⟩ := List.any_eq_true.mp hdevice
  obtain ⟨hlength, hchars⟩ := chars_of_mem_deviceNames device hmem
  rw [eq_of_beq hstem] at hlength hchars
  rw [List.length_map] at hlength
  refine ⟨hlength, fun c hc => isAlphanum_of_toUpper ?_⟩
  exact List.all_eq_true.mp hchars _ (List.mem_map_of_mem hc)

theorem isKept_of_isAlphanum {c : Char} (hc : c.isAlphanum = true) : isKept c = true := by
  have hascii : c.toNat < 0x80 := by
    delta Char.isAlphanum Char.isAlpha Char.isUpper Char.isLower Char.isDigit at hc
    simp only [Bool.or_eq_true, Bool.and_eq_true, decide_eq_true_eq, UInt32.le_iff_toNat_le,
      ge_iff_le, Char.reduceVal, UInt32.reduceToNat] at hc
    change c.val.toNat < 0x80
    omega
  rw [isKept, Text.isAlphanumeric, if_pos hascii, hc]
  rfl

/-- A marked name stands for a device if it has a point, because the mark is behind the point. -/
theorem isDevice_mark_iff (name : List Char) :
    isDevice (mark name) = true ↔ isDevice name = true ∧ '.' ∈ name := by
  by_cases hpoint : '.' ∈ name
  · obtain ⟨before, after, rfl, -⟩ := List.eq_append_cons_of_mem hpoint
    have hstem : stem (mark (before ++ '.' :: after)) = stem (before ++ '.' :: after) := by
      unfold mark
      split
      · rw [List.append_assoc, List.cons_append, stem_append_point, stem_append_point]
      · rfl
    rw [isDevice_congr hstem]
    exact (and_iff_left hpoint).symm
  · refine iff_of_false (fun hdevice => ?_) fun hboth => hpoint hboth.2
    have hchars := (stem_of_isDevice hdevice).2
    rw [stem_of_notMem (point_notMem_mark hpoint)] at hchars
    unfold mark at hdevice hchars
    split at hchars
    · exact absurd (hchars '_' (by simp)) (by decide)
    · next hname =>
      rw [if_neg hname] at hdevice
      exact hname hdevice

/-- Whether a name stands for a device although something comes after a point. -/
def IsDottedDevice (name : List Char) : Prop :=
  isDevice name = true ∧ '.' ∈ name

theorem isDottedDevice_nameOf_iff (segment : List Char) :
    IsDottedDevice (nameOf segment) ↔ IsDottedDevice segment := by
  unfold nameOf
  split
  · next hnil =>
    rw [List.isEmpty_iff.mp hnil]
    exact iff_of_false (fun hboth => absurd hboth.2 (by decide)) fun hboth => nomatch hboth.2
  · rfl

/-- The characters of a name for a device are kept, and no others become one. -/
theorem isDevice_take_map_replacement_iff {name : List Char} (hpoint : '.' ∉ name) :
    isDevice ((name.map replacement).take maxSegment) = true ↔ isDevice name = true := by
  have hsame (hlength : name.length ≤ maxSegment) (hkept : ∀ c ∈ name, isKept c = true) :
      (name.map replacement).take maxSegment = name := by
    have hmap : name.map replacement = name.map id :=
      List.map_congr_left fun c hc => if_pos (hkept c hc)
    rw [hmap, List.map_id, List.take_of_length_le hlength]
  constructor
  · intro hdevice
    have hfree : '.' ∉ (name.map replacement).take maxSegment := fun hmem => by
      obtain ⟨c, _, hc⟩ := List.mem_map.mp (List.mem_of_mem_take hmem)
      exact replacement_ne_point c hc
    obtain ⟨hlength, hchars⟩ := stem_of_isDevice hdevice
    rw [stem_of_notMem hfree] at hlength hchars
    have hshort : name.length ≤ maxSegment := by
      rw [List.length_take, List.length_map] at hlength
      simp only [maxSegment] at hlength ⊢
      omega
    rw [List.take_of_length_le (by rwa [List.length_map])] at hchars
    rwa [hsame hshort fun c hc => ?_] at hdevice
    have halphanum := hchars _ (List.mem_map_of_mem hc)
    unfold replacement at halphanum
    split at halphanum
    · assumption
    · exact absurd halphanum (by decide)
  · intro hdevice
    obtain ⟨hlength, hchars⟩ := stem_of_isDevice hdevice
    rw [stem_of_notMem hpoint] at hlength hchars
    rwa [hsame (Nat.le_trans hlength (by decide)) fun c hc => isKept_of_isAlphanum (hchars c hc)]

/-- A segment stands for a device and has a point exactly if the name does. -/
theorem isDottedDevice_whole_iff (text : List Char) :
    IsDottedDevice (whole text) ↔ IsDottedDevice text := by
  by_cases hpoint : '.' ∈ text
  · obtain ⟨before, after, rfl, hbefore⟩ := List.eq_append_cons_of_mem hpoint
    cases before with
    | nil =>
      -- A point at the start becomes a hyphen.
      have hname : ¬ IsDottedDevice ('.' :: after) := fun hdotted => by
        have hdevice := hdotted.1
        rw [isDevice_congr (show stem ('.' :: after) = stem [] from rfl)] at hdevice
        exact absurd hdevice (by decide)
      refine iff_of_false (fun hdotted => ?_) hname
      obtain ⟨more, hmore⟩ := Segments.prefix_foldl_add after (Segments.add false {} '.')
      have hchars := (stem_of_isDevice hdotted.1).2
      rw [show whole ([] ++ '.' :: after) = '-' :: more from hmore.symm] at hchars
      exact absurd (hchars '-' List.mem_cons_self) (by decide)
    | cons c cs =>
      obtain ⟨more, hmore⟩ := whole_append_point (List.cons_ne_nil c cs) hbefore after
      have hwhole : '.' ∈ whole (c :: cs ++ '.' :: after) := by
        rw [hmore]
        exact List.mem_append_right _ List.mem_cons_self
      rw [IsDottedDevice, IsDottedDevice, and_iff_left hwhole, and_iff_left hpoint, hmore,
        isDevice_congr (stem_append_point _ more), isDevice_take_map_replacement_iff hbefore,
        isDevice_congr (stem_append_point _ after)]
  · exact iff_of_false (fun hdotted => whole_of_notMem hpoint hdotted.2) fun hdotted =>
      hpoint hdotted.2

/-- A part of the path of a type stands for a device exactly if it comes from a name that stands for
one and has a point: the name of the type, or that of the namespace if its points do not start
directories. -/
theorem ofType_marks_devices (nested : Bool) (namespaceName typeName : String) :
    ∃ directories file,
      components (ofType nested namespaceName typeName) = directories ++ [file] ∧
      (∀ directory ∈ directories, isDevice directory = true ↔
        nested = false ∧ IsDottedDevice (significant namespaceName.toList)) ∧
      (isDevice file = true ↔ IsDottedDevice (significant typeName.toList)) := by
  refine ⟨_, _, components_ofType nested namespaceName typeName, fun directory hdirectory => ?_, ?_⟩
  · obtain ⟨name, hname, rfl⟩ := List.mem_map.mp hdirectory
    rw [isDevice_mark_iff]
    cases nested with
    | true =>
      exact iff_of_false (fun hboth => point_notMem_directoryNames hname hboth.2) nofun
    | false =>
      unfold directoryNames at hname
      split at hname
      · cases hname
      · rw [segmentsOf_false, List.map_singleton, List.mem_singleton] at hname
        rw [hname, and_iff_right rfl, ← isDottedDevice_whole_iff, ← isDottedDevice_nameOf_iff]
        rfl
  · rw [isDevice_append_extension, isDevice_mark_iff, ← isDottedDevice_whole_iff,
      ← isDottedDevice_nameOf_iff]
    rfl

/-- The directory of a namespace that starts with the name of a device stands for that device in
spite of its mark. -/
theorem components_dottedDevice :
    components (ofType false "Aux.Models" "Type") = ["Aux.Models_".toList, "Type.cs".toList] ∧
      isDevice "Aux.Models_".toList = true := by
  rw [components_ofType]
  decide

end Devices

section Lengths

theorem length_nameOf_le (segment : List Char) {bound : Nat} (hbound : 0 < bound) :
    (nameOf segment).length ≤ bound ↔ segment.length ≤ bound := by
  unfold nameOf
  split
  · next hnil =>
    rw [List.isEmpty_iff.mp hnil]
    exact iff_of_true hbound (Nat.zero_le bound)
  · rfl

/-- The names in the path of a type have at most one character more than the longest part of a path,
not counting the marks of devices. A name has it exactly if it comes from one that overruns: the
name of the type, or that of the namespace if its points do not start directories. -/
theorem ofType_cuts_names (nested : Bool) (namespaceName typeName : String) :
    components (ofType nested namespaceName typeName) =
      (directoryNames nested namespaceName).map mark ++ [mark (fileName typeName) ++ extension] ∧
    (∀ name ∈ directoryNames nested namespaceName, name.length ≤ maxSegment + 1 ∧
      (maxSegment < name.length ↔
        nested = false ∧ Overruns (significant namespaceName.toList))) ∧
    (fileName typeName).length ≤ maxSegment + 1 ∧
    (maxSegment < (fileName typeName).length ↔ Overruns (significant typeName.toList)) := by
  have hname (text : List Char) : (nameOf (whole text)).length ≤ maxSegment + 1 ∧
      (maxSegment < (nameOf (whole text)).length ↔ Overruns text) := by
    rw [← Nat.not_le, length_nameOf_le _ (by decide), length_nameOf_le _ (by decide), Nat.not_le]
    exact length_whole text
  refine ⟨components_ofType nested namespaceName typeName, fun name hmem => ?_, hname _⟩
  unfold directoryNames at hmem
  split at hmem
  · cases hmem
  · obtain ⟨segment, hsegment, rfl⟩ := List.mem_map.mp hmem
    cases nested with
    | true =>
      have hle := (length_nameOf_le segment (by decide)).mpr (length_le_of_mem_segmentsOf hsegment)
      exact ⟨Nat.le_succ_of_le hle, iff_of_false (Nat.not_lt.mpr hle) nofun⟩
    | false =>
      rw [segmentsOf_false, List.mem_singleton] at hsegment
      rw [hsegment, and_iff_right rfl]
      exact hname _

/-- A namespace whose first part is as long as a part of a path can be. -/
def longNamespace : List Char :=
  List.replicate maxSegment 'N' ++ ".Models".toList

theorem whole_longNamespace : whole longNamespace = List.replicate maxSegment 'N' ++ ['.'] := by
  have hfirst : whole (longNamespace.take maxSegment) = List.replicate maxSegment 'N' := by
    have hpoint : '.' ∉ List.replicate maxSegment 'N' := fun hmem =>
      absurd (List.eq_of_mem_replicate hmem) (by decide)
    rw [longNamespace, List.take_left' List.length_replicate, whole,
      Segments.current_foldl_add_of_notMem hpoint, List.map_replicate]
    exact List.take_of_length_le (Nat.le_of_eq List.length_replicate)
  have hover : Overruns longNamespace := by
    refine ⟨?_, ?_⟩
    · rw [longNamespace, List.drop_left' List.length_replicate]
      decide
    · rw [hfirst]
      decide
  rw [whole_eq, hfirst, if_pos hover]

/-- The directory of a namespace takes on a point behind the longest part of a path. -/
theorem components_longName :
    directoryNames false (String.ofList longNamespace) =
      [List.replicate maxSegment 'N' ++ ['.']] ∧
    components (ofType false (String.ofList longNamespace) "Type") =
      [List.replicate maxSegment 'N' ++ ['.'], "Type.cs".toList] ∧
    maxSegment < (List.replicate maxSegment 'N' ++ ['.']).length := by
  have hsignificant : significant longNamespace = longNamespace := by decide +kernel
  have hnames : directoryNames false (String.ofList longNamespace) =
      [List.replicate maxSegment 'N' ++ ['.']] := by
    have hne : ¬ (String.ofList longNamespace).isEmpty = true := by decide +kernel
    rw [directoryNames, if_neg hne, String.toList_ofList, hsignificant, segmentsOf_false,
      whole_longNamespace]
    rfl
  refine ⟨hnames, ?_, by simp⟩
  rw [components_ofType, hnames]
  rfl

end Lengths

end PortablePdb.VirtualPath
