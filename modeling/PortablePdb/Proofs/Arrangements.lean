import Mathlib.Data.List.Nodup
import PortablePdb.Json.Decode

namespace PortablePdb.Json

/-- A way to arrange the members of objects. -/
structure Arrangement where
  arrange : List (String × Json) → List (String × Json)
  perm : ∀ members, (arrange members).Perm members

namespace Arrangement

/-- Members stay in the order in which they are written. -/
def asWritten : Arrangement :=
  ⟨id, fun members => .refl members⟩

/-- Members are sorted by name. -/
def byName : Arrangement :=
  ⟨fun members => members.mergeSort fun a b => a.1 ≤ b.1, fun members => members.mergeSort_perm _⟩

end Arrangement

section Rearrange

variable (arrangement : Arrangement)

mutual

/-- The value with the members of all its objects arranged. -/
def rearrange : Json → Json
  | array items => array (rearrangeItems items)
  | object members => object (arrangement.arrange (rearrangeMembers members))
  | json => json

/-- Several values with the members of their objects arranged. -/
def rearrangeItems : List Json → List Json
  | [] => []
  | item :: items => rearrange item :: rearrangeItems items

/-- Members with those of the objects in their values arranged. -/
def rearrangeMembers : List (String × Json) → List (String × Json)
  | [] => []
  | (name, value) :: members => (name, rearrange value) :: rearrangeMembers members

end

theorem rearrangeItems_eq (items : List Json) :
    rearrangeItems arrangement items = items.map (rearrange arrangement) := by
  induction items with
  | nil => rfl
  | cons item items ih => rw [rearrangeItems, ih, List.map_cons]

theorem rearrangeMembers_eq (members : List (String × Json)) :
    rearrangeMembers arrangement members =
      members.map fun member => (member.1, rearrange arrangement member.2) := by
  induction members with
  | nil => rfl
  | cons member members ih => rw [rearrangeMembers, ih, List.map_cons]

end Rearrange

mutual

theorem rearrange_asWritten (json : Json) : rearrange .asWritten json = json := by
  cases json with
  | array items => rw [rearrange, rearrangeItems_asWritten items]
  | object members => rw [rearrange, rearrangeMembers_asWritten members]; rfl
  | _ => rfl

theorem rearrangeItems_asWritten (items : List Json) :
    rearrangeItems .asWritten items = items := by
  cases items with
  | nil => rfl
  | cons item items => rw [rearrangeItems, rearrange_asWritten item, rearrangeItems_asWritten items]

theorem rearrangeMembers_asWritten (members : List (String × Json)) :
    rearrangeMembers .asWritten members = members := by
  cases members with
  | nil => rfl
  | cons member members =>
    obtain ⟨name, value⟩ := member
    rw [rearrangeMembers, rearrange_asWritten value, rearrangeMembers_asWritten members]

end

/-- However members are arranged, a value is read from a JSON value. -/
def ReadsBack {α : Type} (decode : Json → Option α) (json : Json) (value : α) : Prop :=
  ∀ arrangement, decode (json.rearrange arrangement) = some value

section ReadsBack

variable {α : Type} {decode : Json → Option α}

theorem readsBack_string (text : String) : ReadsBack string? (.string text) text :=
  fun _ => rfl

theorem readsBack_bool (value : Bool) : ReadsBack bool? (.bool value) value :=
  fun _ => rfl

theorem natBelow?_nat {bound n : Nat} (hlt : n < bound) : natBelow? bound (.nat n) = some n := by
  simp [natBelow?, nat, hlt]

/-- A value that numbers below a bound stand for is read back from its number. -/
theorem readsBack_nat {bound n : Nat} {ofNat : Nat → α} {value : α} (hlt : n < bound)
    (hvalue : ofNat n = value) :
    ReadsBack (fun json => (natBelow? bound json).map ofNat) (.nat n) value := by
  intro arrangement
  change (natBelow? bound (.nat n)).map ofNat = some value
  rw [natBelow?_nat hlt, Option.map_some, hvalue]

theorem readsBack_word32 (word : UInt32) : ReadsBack word32? (.nat word.toNat) word :=
  readsBack_nat word.toNat_lt UInt32.ofNat_toNat

theorem readsBack_word16 (word : UInt16) : ReadsBack word16? (.nat word.toNat) word :=
  readsBack_nat word.toNat_lt UInt16.ofNat_toNat

theorem readsBack_null : ReadsBack (nullable? decode) .null none :=
  fun _ => rfl

theorem ReadsBack.nullable {json : Json} {value : α} (hread : ReadsBack decode json value)
    (hvalue : json ≠ .null) : ReadsBack (nullable? decode) json (some value) := by
  intro arrangement
  have hnonnull : json.rearrange arrangement ≠ .null := by
    cases json with
    | null => exact absurd rfl hvalue
    | _ => simp [rearrange]
  rw [nullable?]
  · rw [hread arrangement]
    rfl
  · exact hnonnull

theorem mapM_rearrange {encode : α → Json} {values : List α} (arrangement : Arrangement)
    (hread : ∀ value ∈ values, ReadsBack decode (encode value) value) :
    ((values.map encode).map (rearrange arrangement)).mapM decode = some values := by
  induction values with
  | nil => rfl
  | cons value values ih =>
    have hrest := ih fun other hother => hread other (List.mem_cons_of_mem value hother)
    rw [List.map_cons, List.map_cons, List.mapM_cons, hread value List.mem_cons_self arrangement,
      hrest]
    rfl

theorem readsBack_list {encode : α → Json} {values : List α}
    (hread : ∀ value ∈ values, ReadsBack decode (encode value) value) :
    ReadsBack (list? decode) (ofList encode values) values := by
  intro arrangement
  rw [ofList, rearrange, list?, rearrangeItems_eq]
  exact mapM_rearrange arrangement hread

end ReadsBack

/-- Where no name is repeated, what stands with a name is found by it. -/
theorem lookup_eq_some_iff_mem {α : Type} {entries : List (String × α)}
    (hnames : (entries.map Prod.fst).Nodup) {name : String} {value : α} :
    entries.lookup name = some value ↔ (name, value) ∈ entries := by
  induction entries with
  | nil => simp
  | cons entry entries ih =>
    obtain ⟨first, other⟩ := entry
    obtain ⟨hfirst, hrest⟩ := List.nodup_cons.mp hnames
    rw [List.lookup_cons, List.mem_cons, Prod.mk.injEq, ← ih hrest]
    by_cases hname : name = first
    · subst hname
      have hmissing : (name, value) ∉ entries := fun hmem =>
        hfirst (List.mem_map.mpr ⟨_, hmem, rfl⟩)
      rw [← ih hrest] at hmissing
      simp [hmissing, eq_comm]
    · simp [hname, beq_eq_false_iff_ne.mpr hname]

/-- Whether a value is an object with a member of some name. -/
def hasMember (name : String) : Json → Bool
  | .object members => (members.lookup name).isSome
  | _ => false

section Members

variable {members : List (String × Json)} (arrangement : Arrangement)

/-- The members of an object, once it is arranged. -/
def arranged (members : List (String × Json)) : List (String × Json) :=
  arrangement.arrange (rearrangeMembers arrangement members)

theorem rearrange_object :
    (object members).rearrange arrangement = object (arranged arrangement members) :=
  rfl

/-- There is one way to arrange a single member. -/
theorem arranged_singleton (name : String) (value : Json) :
    arranged arrangement [(name, value)] = [(name, rearrange arrangement value)] :=
  List.perm_singleton.mp (arrangement.perm _)

theorem mem_arranged_iff {member : String × Json} : member ∈ arranged arrangement members ↔
    ∃ value, (member.1, value) ∈ members ∧ rearrange arrangement value = member.2 := by
  rw [arranged, (arrangement.perm _).mem_iff, rearrangeMembers_eq, List.mem_map]
  constructor
  · rintro ⟨⟨name, value⟩, hmem, rfl⟩
    exact ⟨value, hmem, rfl⟩
  · rintro ⟨value, hmem, hvalue⟩
    exact ⟨_, hmem, Prod.ext rfl hvalue⟩

theorem perm_names_arranged (members : List (String × Json)) :
    ((arranged arrangement members).map Prod.fst).Perm (members.map Prod.fst) := by
  have hnames : (rearrangeMembers arrangement members).map Prod.fst = members.map Prod.fst := by
    rw [rearrangeMembers_eq, List.map_map]
    rfl
  exact hnames ▸ (arrangement.perm _).map Prod.fst

/-- A member of an object is found after it was arranged. -/
theorem lookup_arranged (hnames : (members.map Prod.fst).Nodup) (name : String) :
    (arranged arrangement members).lookup name =
      (members.lookup name).map (rearrange arrangement) := by
  have harranged := (perm_names_arranged arrangement members).nodup_iff.mpr hnames
  refine Option.ext fun value => ?_
  rw [lookup_eq_some_iff_mem harranged, mem_arranged_iff, Option.map_eq_some_iff]
  simp only [lookup_eq_some_iff_mem hnames]

/-- The fields of a record in an object without repeated names, whatever names they have. -/
theorem fields?_rearrange (hnames : (members.map Prod.fst).Nodup) (names : List String) :
    ((object members).rearrange arrangement).fields? names =
      some fun name => (members.lookup name).map (rearrange arrangement) := by
  have hcount (name : String) : (arranged arrangement members).countP (·.1 == name) ≤ 1 := by
    have hperm := (perm_names_arranged arrangement members).count_eq name
    have hle := List.nodup_iff_count_le_one.mp hnames name
    rw [← hperm, List.count, List.countP_map] at hle
    exact hle
  have hall : (names.all fun name =>
      decide ((arranged arrangement members).countP (·.1 == name) ≤ 1)) = true :=
    List.all_eq_true.mpr fun name _ => decide_eq_true (hcount name)
  rw [rearrange_object, fields?, if_pos hall]
  exact congrArg some (funext (lookup_arranged arrangement hnames))

variable {α : Type} {decode : Json → Option α} {name : String} {json : Json} {value : α}

theorem required_rearrange (hfield : members.lookup name = some json)
    (hread : ReadsBack decode json value) :
    required (fun name => (members.lookup name).map (rearrange arrangement)) name decode =
      some value := by
  rw [required, hfield]
  exact hread arrangement

theorem optional_rearrange {default : α} (hfield : members.lookup name = some json)
    (hread : ReadsBack decode json value) :
    optional (fun name => (members.lookup name).map (rearrange arrangement)) name decode default =
      some value := by
  rw [optional, hfield]
  exact hread arrangement

/-- A field that is left out where it has its default. -/
theorem optional_rearrange_default [DecidableEq α] {default : α}
    (hfield : members.lookup name = if value = default then none else some json)
    (hread : ReadsBack decode json value) :
    optional (fun name => (members.lookup name).map (rearrange arrangement)) name decode default =
      some value := by
  rw [optional, hfield]
  split
  · next hdefault =>
    split at hdefault
    · cases hdefault
    · cases hdefault
      exact hread arrangement
  · next hdefault =>
    split at hdefault
    · next hvalue => rw [hvalue]
    · cases hdefault

/-- A field that is left out where there is no value. -/
theorem optional_rearrange_option {encode : α → Json} (value? : Option α)
    (hfield : members.lookup name = value?.map encode)
    (hread : ∀ value, ReadsBack decode (encode value) value)
    (hencode : ∀ value, encode value ≠ .null) :
    optional (fun name => (members.lookup name).map (rearrange arrangement)) name
      (nullable? decode) none = some value? := by
  rw [optional, hfield]
  cases value? with
  | none => rfl
  | some value => exact (hread value).nullable (hencode value) arrangement

end Members

end PortablePdb.Json
