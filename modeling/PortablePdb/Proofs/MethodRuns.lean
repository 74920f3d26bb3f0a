import PortablePdb.Proofs.LoadedRows

namespace PortablePdb

namespace Module

/-- The tokens of some methods, one row after the other. -/
def methodTokens (first count : Nat) : List Token :=
  (List.range' first count).map fun rid => Token.methodDef rid.toUInt32

theorem methodTokens_append {first middle stop : Nat} (hfirst : first ≤ middle)
    (hmiddle : middle ≤ stop) :
    methodTokens first (middle - first) ++ methodTokens middle (stop - middle) =
      methodTokens first (stop - first) := by
  have hcount : stop - first = (middle - first) + (stop - middle) := by omega
  have hstart : first + 1 * (middle - first) = middle := by omega
  rw [methodTokens, methodTokens, methodTokens, ← List.map_append, hcount, ← List.range'_append,
    hstart]

theorem row_of_mem_methodTokens {first stop : Nat} {method : Token} (hstop : stop ≤ 0x1000000)
    (hmethod : method ∈ methodTokens first (stop - first)) :
    first ≤ method.row.toNat ∧ method.row.toNat < stop ∧
      method = .methodDef method.row.toNat.toUInt32 := by
  obtain ⟨rid, hrid, rfl⟩ := List.mem_map.mp hmethod
  obtain ⟨hfirst, hlast⟩ := List.mem_range'_1.mp hrid
  have hlt : rid < stop := by omega
  have hrow : (Token.methodDef rid.toUInt32).row.toNat = rid :=
    Token.toNat_row_ofParts_toUInt32 (hlt.trans_le hstop)
  rw [hrow]
  exact ⟨hfirst, hlt, rfl⟩

theorem nodup_methodTokens {first stop : Nat} (hstop : stop ≤ 0x1000000) :
    (methodTokens first (stop - first)).Nodup := by
  refine List.pairwise_map.mpr (List.Pairwise.imp_of_mem ?_ List.nodup_range')
  intro rid other hrid hother hne heq
  rw [List.mem_range'_1] at hrid hother
  have hrow := congrArg (·.row.toNat) heq
  simp only [Token.methodDef] at hrow
  rw [Token.toNat_row_ofParts_toUInt32 (by omega), Token.toNat_row_ofParts_toUInt32 (by omega)]
    at hrow
  exact hne hrow

/-- The methods that types list, one type after the other. -/
def listedMethods (types : Array ModuleType) : List Token :=
  types.toList.flatMap (·.methods.toList)

/-- Types list all methods from a row up to another one in order, and each method is declared by the
type that lists it. -/
structure SharesOut (types : Array ModuleType) (declares : Token → Token → Prop)
    (first stop : Nat) : Prop where
  listed : listedMethods types = methodTokens first (stop - first)
  declared : ∀ type ∈ types, ∀ method ∈ type.methods, declares type.token method

namespace SharesOut

variable {types : Array ModuleType} {declares : Token → Token → Prop} {first stop : Nat}

theorem row_of_mem (hshares : SharesOut types declares first stop) (hstop : stop ≤ 0x1000000)
    {type : ModuleType} (htype : type ∈ types) {method : Token} (hmethod : method ∈ type.methods) :
    first ≤ method.row.toNat ∧ method.row.toNat < stop ∧
      method = .methodDef method.row.toNat.toUInt32 := by
  apply row_of_mem_methodTokens hstop
  rw [← hshares.listed]
  exact List.mem_flatMap.mpr ⟨type, htype.val, hmethod.val⟩

theorem nodup (hshares : SharesOut types declares first stop) (hstop : stop ≤ 0x1000000) :
    (listedMethods types).Nodup :=
  hshares.listed ▸ nodup_methodTokens hstop

end SharesOut

/-- The type that is noted as the owner of a method. -/
def Owners.Declares (owners : Owners) (type method : Token) : Prop :=
  owners.declaring[method.row.toNat - 1]? = some type

/-- The type that a method of the module names as its own. -/
def Declares (module : Module) (type method : Token) : Prop :=
  ∃ info, module.method? method = some info ∧ info.token = method ∧ info.declaringType = type

/-- A type becomes the owner of its methods, and no other method gets another owner. -/
theorem getElem?_declare {type : Token} {methods : List Token} {owners after : Array Token}
    (hafter : declare type owners methods.toArray = .ok after) :
    (∀ method ∈ methods, after[method.row.toNat - 1]? = some type) ∧
      ∀ i, (∀ method ∈ methods, method.row.toNat - 1 ≠ i) → after[i]? = owners[i]? := by
  simp only [declare, List.foldlM_toArray] at hafter
  induction methods generalizing owners with
  | nil =>
    cases hafter
    exact ⟨List.forall_mem_nil _, fun _ _ => rfl⟩
  | cons method methods ih =>
    rw [List.foldlM_cons] at hafter
    obtain ⟨middle, hmiddle, hafter⟩ := bind_eq_ok_iff.mp hafter
    split at hmiddle
    · next hrow =>
      simp only [Bool.and_eq_true, decide_eq_true_eq] at hrow
      cases hmiddle
      obtain ⟨hset, hkept⟩ := ih hafter
      refine ⟨List.forall_mem_cons.mpr ⟨?_, hset⟩, fun i hother => ?_⟩
      · -- A later method in the same row has the same owner.
        by_cases hlater : ∃ other ∈ methods, other.row.toNat - 1 = method.row.toNat - 1
        · obtain ⟨other, hmem, hsame⟩ := hlater
          rw [← hsame]
          exact hset other hmem
        · rw [hkept _ fun other hmem hsame => hlater ⟨other, hmem, hsame⟩,
            Array.getElem?_setIfInBounds_self_of_lt (by omega)]
      · obtain ⟨hne, hothers⟩ := List.forall_mem_cons.mp hother
        rw [hkept i hothers, Array.getElem?_setIfInBounds_ne hne]
    · cases hmiddle

section Runs

variable {strings : StringHeap} {types : Array TypeDefRow} {nesting : Array NestedClassRow}
  {methodCount index first start stop : Nat} {type : TypeDefRow} {owners after : Owners}

/-- A type whose run starts where the methods shared out so far end shares out its run. -/
theorem SharesOut.add (hshares : SharesOut owners.types owners.Declares first start)
    (hpos : 1 ≤ first) (hfirst : first ≤ start) (hstart : start ≤ stop) (hstop : stop ≤ 0x1000000)
    (hrun : methodRun types owners.declaring.size index type =
      (methodTokens start (stop - start)).toArray)
    (hafter : owners.add strings types nesting index type = .ok after) :
    SharesOut after.types after.Declares first stop := by
  obtain ⟨added, htypes, -, -, -, -, hmethods, hdeclare⟩ := add_eq_ok hafter
  rw [hmethods, hrun] at hdeclare
  obtain ⟨hset, hkept⟩ := getElem?_declare hdeclare
  constructor
  · rw [listedMethods, htypes, Array.toList_push, List.flatMap_append, List.flatMap_singleton,
      hmethods, hrun, ← listedMethods, hshares.listed, methodTokens_append hfirst hstart]
  · intro other hother method hmethod
    rw [htypes] at hother
    rcases Array.mem_push.mp hother with hearlier | rfl
    · obtain ⟨hle, hlt, -⟩ := hshares.row_of_mem (hstart.trans hstop) hearlier hmethod
      -- All methods of the run come behind the ones that were shared out before.
      have hapart (later : Token) (hlater : later ∈ methodTokens start (stop - start)) :
          later.row.toNat - 1 ≠ method.row.toNat - 1 := by
        obtain ⟨hrow, -⟩ := row_of_mem_methodTokens hstop hlater
        omega
      rw [Owners.Declares, hkept _ hapart]
      exact hshares.declared other hearlier method hmethod
    · rw [hmethods, hrun] at hmethod
      exact hset method (List.mem_toArray.mp hmethod)

/-- Types start their runs in order, each at the row of a method or right behind the last one. -/
structure StartsRuns (types : Array TypeDefRow) (methodCount : Nat) : Prop where
  sorted : types.toList.Pairwise fun earlier later => earlier.methodList ≤ later.methodList
  within : ∀ type ∈ types, 1 ≤ type.methodList.toNat ∧ type.methodList.toNat ≤ methodCount + 1

/-- The row that the run of a type starts at; behind the last type, the row behind the last method.
-/
def startOf (types : Array TypeDefRow) (methodCount index : Nat) : Nat :=
  match types[index]? with
  | some type => type.methodList.toNat
  | none => methodCount + 1

theorem startOf_of_getElem? (htype : types[index]? = some type) :
    startOf types methodCount index = type.methodList.toNat := by
  rw [startOf, htype]

namespace StartsRuns

theorem one_le_startOf (hstarts : StartsRuns types methodCount) (index : Nat) :
    1 ≤ startOf types methodCount index := by
  unfold startOf
  split
  · next type htype => exact (hstarts.within type (Array.mem_of_getElem? htype)).1
  · exact Nat.succ_pos _

theorem startOf_le (hstarts : StartsRuns types methodCount) (index : Nat) :
    startOf types methodCount index ≤ methodCount + 1 := by
  unfold startOf
  split
  · next type htype => exact (hstarts.within type (Array.mem_of_getElem? htype)).2
  · exact Nat.le_refl _

theorem le_startOf (hstarts : StartsRuns types methodCount) {earlier later : Nat}
    (hle : earlier ≤ later) :
    startOf types methodCount earlier ≤ startOf types methodCount later := by
  rcases hle.eq_or_lt with rfl | hlt
  · exact Nat.le_refl _
  cases hlater : types[later]? with
  | none =>
    have hlast : startOf types methodCount later = methodCount + 1 := by rw [startOf, hlater]
    exact hlast ▸ hstarts.startOf_le earlier
  | some last =>
    obtain ⟨hsize, rfl⟩ := Array.getElem?_eq_some_iff.mp hlater
    have hfirst : types[earlier]? = some types[earlier] :=
      Array.getElem?_eq_getElem (hlt.trans hsize)
    rw [startOf_of_getElem? hfirst, startOf_of_getElem? hlater]
    exact List.pairwise_iff_getElem.mp hstarts.sorted earlier later (hlt.trans hsize) hsize hlt

theorem methodRun_eq (hstarts : StartsRuns types methodCount) (htype : types[index]? = some type) :
    methodRun types methodCount index type =
      (methodTokens (startOf types methodCount index)
        (startOf types methodCount (index + 1) - startOf types methodCount index)).toArray := by
  have hpos := (hstarts.within type (Array.mem_of_getElem? htype)).1
  have hkept (count : Nat) : (List.range' type.methodList.toNat count).filter (· ≠ 0) =
      List.range' type.methodList.toNat count := by
    rw [List.filter_eq_self]
    intro rid hrid
    have hle := (List.mem_range'_1.mp hrid).1
    exact decide_eq_true (by omega)
  rw [startOf_of_getElem? htype, methodRun, methodTokens]
  simp only [hkept]
  cases hnext : types[index + 1]? with
  | none => simp only [startOf, hnext]
  | some next =>
    have hle := hstarts.startOf_le (index + 1)
    rw [startOf_of_getElem? hnext] at hle ⊢
    simp only [Nat.min_eq_left hle]

/-- Types that start their runs in order share out all methods from the first start on. -/
theorem sharesOut (hstarts : StartsRuns types methodCount) (hcount : methodCount < 0x1000000)
    (howners : ownersOf strings types nesting methodCount = .ok owners) :
    SharesOut owners.types owners.Declares (startOf types methodCount 0) (methodCount + 1) := by
  have hlast : startOf types methodCount types.size = methodCount + 1 := by
    rw [startOf, Array.getElem?_size]
  refine hlast ▸ (ownersOf_induction
    (motive := fun index owners => owners.declaring.size = methodCount ∧
      SharesOut owners.types owners.Declares (startOf types methodCount 0)
        (startOf types methodCount index)) ⟨Array.size_replicate, ?_, nofun⟩ ?_ howners).2
  · rw [Nat.sub_self]
    rfl
  · rintro index type before after htype ⟨hsize, hshares⟩ hafter
    refine ⟨(size_of_add (by omega) hafter).trans hsize, ?_⟩
    have hstop := hstarts.startOf_le (index + 1)
    refine hshares.add (hstarts.one_le_startOf 0) (hstarts.le_startOf index.zero_le)
      (hstarts.le_startOf index.le_succ) (by omega) ?_ hafter
    rw [hsize, hstarts.methodRun_eq htype]

end StartsRuns

theorem exists_foldlM_add_iff (hcount : owners.declaring.size < 0x1000000) (rows : List TypeDefRow)
    (first : Nat) :
    (∃ after, (rows.zipIdx first).foldlM
        (fun owners (row, index) => owners.add strings types nesting index row) owners =
        .ok after) ↔ ∀ row ∈ rows, IsNamed strings row := by
  induction rows generalizing owners first with
  | nil => exact ⟨nofun, fun _ => ⟨owners, rfl⟩⟩
  | cons row rows ih =>
    have hkept : ¬ LosesMethod types owners.declaring.size first row := by
      intro hloses
      have hle := le_of_losesMethod (by omega) hloses
      omega
    rw [List.zipIdx_cons, List.foldlM_cons, List.forall_mem_cons]
    simp only
    rcases add_of_kept (by omega) hkept with
      ⟨hnamed, middle, hmiddle, hsize⟩ | ⟨hnamed, error, -, herror⟩
    · rw [hmiddle, ok_bind, ih (hsize ▸ hcount)]
      exact (and_iff_right hnamed).symm
    · rw [herror]
      exact ⟨nofun, fun hall => absurd hall.1 hnamed⟩

/-- With methods that all fit tokens, the owners are found if the types have their names. -/
theorem exists_ownersOf_iff (hcount : methodCount < 0x1000000) :
    (∃ owners, ownersOf strings types nesting methodCount = .ok owners) ↔
      ∀ type ∈ types, IsNamed strings type := by
  rw [ownersOf, exists_foldlM_add_iff (by rwa [Array.size_replicate])]
  exact forall_congr' fun type => imp_congr_left Array.mem_toList_iff

/-- Types are listed under the tokens of their rows. -/
theorem map_token_ownersOf (hcount : methodCount < 0x1000000)
    (howners : ownersOf strings types nesting methodCount = .ok owners) :
    owners.types.map (·.token) = types.map Row.token := by
  have hlists := listsRows_ownersOf (by omega) howners
  refine Array.ext (by simpa using hlists.size) fun i hi _ => ?_
  rw [Array.size_map] at hi
  obtain ⟨row, hrow, htoken⟩ := hlists.token i _ (Array.getElem?_eq_getElem hi)
  obtain ⟨_, rfl⟩ := Array.getElem?_eq_some_iff.mp hrow
  rw [Array.getElem_map, Array.getElem_map, htoken]

end Runs

theorem isTable_methodDef {row : Nat} (hpos : 1 ≤ row) (hrow : row < 0x1000000) :
    (Token.methodDef row.toUInt32).isTable .methodDef = true := by
  have hne : (Token.ofParts .methodDef row.toUInt32).row ≠ 0 := fun hzero => by
    have hsame : (Token.ofParts .methodDef row.toUInt32).row.toNat = row :=
      Token.toNat_row_ofParts_toUInt32 hrow
    rw [hzero, UInt32.toNat_zero] at hsame
    omega
  rw [Token.isTable, Token.methodDef, Token.tableId_ofParts, beq_self_eq_true, Bool.true_and,
    bne_iff_ne]
  exact hne

/-- The owner that is noted for a method is the one that the method has in the module. -/
theorem SharesOut.withOwners {parts : Parts} {image : Image} {owners : Owners} {module : Module}
    {first stop : Nat} (hshares : SharesOut owners.types owners.Declares first stop)
    (hfirst : 1 ≤ first) (hstop : stop ≤ 0x1000000)
    (hsize : owners.declaring.size = parts.methodCount)
    (hmodule : parts.withOwners image owners = .ok module) :
    SharesOut module.types module.Declares first stop := by
  obtain ⟨htypes, -, hmethods⟩ := Parts.withOwners_eq_ok hmodule
  rw [htypes]
  refine ⟨hshares.listed, fun type htype method hmethod => ?_⟩
  obtain ⟨hle, hlt, htoken⟩ := hshares.row_of_mem hstop htype hmethod
  have howner : owners.declaring[method.row.toNat - 1]? = some type.token :=
    hshares.declared type htype method hmethod
  have hrow := Array.getElem?_eq_getElem
    ((Array.getElem?_eq_some_iff.mp howner).1.trans_eq hsize)
  have hentry : ((parts.tables.rows MethodDefRow).zip owners.declaring)[method.row.toNat - 1]? =
      some (_, type.token) := Array.getElem?_zip_eq_some.mpr ⟨hrow, howner⟩
  obtain ⟨info, hinfo, -, hdeclaring⟩ := exists_getElem?_of_forall₂ hmethods hentry
  have hsucc : method.row.toNat - 1 + 1 = method.row.toNat := by omega
  have htable : method.isTable .methodDef = true :=
    (congrArg (·.isTable .methodDef) htoken).trans
      (isTable_methodDef (hfirst.trans hle) (hlt.trans_le hstop))
  refine ⟨info, ?_, ?_, hdeclaring⟩
  · rw [method?, if_pos htable]
    exact hinfo
  · rw [Parts.token_of_methods hmodule hinfo, hsucc]
    exact htoken.symm

/-- Types that start their runs of methods in order share out all methods from the first start on:
their lists, put together in the order of the types, hold each of the methods once and in order, and
a method is declared by the type that lists it. The owners of the methods are found exactly if the
types have their names, and a module that is read from an image has them. -/
theorem ownersOf_shares_methods {types : Array TypeDefRow} {first : TypeDefRow} {methodCount : Nat}
    (hfirst : types[0]? = some first) (hstarts : StartsRuns types methodCount)
    (hcount : methodCount < 0x1000000) (strings : StringHeap) (nesting : Array NestedClassRow) :
    ((∃ owners, ownersOf strings types nesting methodCount = .ok owners) ↔
      ∀ type ∈ types, IsNamed strings type) ∧
    (∀ owners, ownersOf strings types nesting methodCount = .ok owners →
      owners.types.map (·.token) = types.map Row.token ∧ (listedMethods owners.types).Nodup ∧
        SharesOut owners.types owners.Declares first.methodList.toNat (methodCount + 1)) ∧
    ∀ image parts module, partsOf image = .ok parts → parts.tables.rows TypeDefRow = types →
      parts.methodCount = methodCount → ofImage image = .ok module →
      module.types.map (·.token) = types.map Row.token ∧ (listedMethods module.types).Nodup ∧
        SharesOut module.types module.Declares first.methodList.toNat (methodCount + 1) := by
  rw [← startOf_of_getElem? hfirst]
  have hstop : methodCount + 1 ≤ 0x1000000 := hcount
  refine ⟨exists_ownersOf_iff hcount, fun owners howners => ?_, ?_⟩
  · have hshares := hstarts.sharesOut hcount howners
    exact ⟨map_token_ownersOf hcount howners, hshares.nodup hstop, hshares⟩
  · rintro image parts module hparts rfl rfl hread
    obtain ⟨other, owners, hother, howners, hmodule⟩ := ofImage_eq_ok hread
    obtain rfl := Except.ok.inj (hparts.symm.trans hother)
    have hsize := (listsRows_ownersOf (Parts.methodCount_lt hparts) howners).size_declaring
    have hshares := (hstarts.sharesOut hcount howners).withOwners (hstarts.one_le_startOf 0) hstop
      hsize hmodule
    refine ⟨?_, hshares.nodup hstop, hshares⟩
    rw [(Parts.withOwners_eq_ok hmodule).1]
    exact map_token_ownersOf hcount howners

/-- Of three types of an image, the second has both methods. The first one starts at the same
method, and the third one behind the last. -/
theorem ownersOf_shares_methods_threeTypes : ∃ parts module,
    partsOf (threeTypeImage [(0, 1), (0, 1), (0, 3)]) = .ok parts ∧
      ofImage (threeTypeImage [(0, 1), (0, 1), (0, 3)]) = .ok module ∧
      (parts.tables.rows TypeDefRow).map (·.methodList) = #[1, 1, 3] ∧ parts.methodCount = 2 ∧
      SharesOut module.types module.Declares 1 3 ∧
      listedMethods module.types = [.methodDef 1, .methodDef 2] := by
  have hrows : (partsOf (threeTypeImage [(0, 1), (0, 1), (0, 3)])).toOption.map (fun parts =>
      ((parts.tables.rows TypeDefRow).map (·.methodList), parts.methodCount)) =
      some (#[1, 1, 3], 2) := by
    decide +kernel
  have hread : (ofImage (threeTypeImage [(0, 1), (0, 1), (0, 3)])).toOption.map (·.types.size) =
      some 3 := by
    decide +kernel
  obtain ⟨module, hread, -⟩ := exists_ok_of_toOption_map hread
  obtain ⟨parts, hparts, hrows⟩ := exists_ok_of_toOption_map hrows
  obtain ⟨hlists, hcount⟩ := Prod.ext_iff.mp hrows
  simp only at hlists hcount
  have hsorted : ((parts.tables.rows TypeDefRow).map (·.methodList)).toList.Pairwise (· ≤ ·) := by
    rw [hlists]
    decide
  have hwithin : ∀ start ∈ (parts.tables.rows TypeDefRow).map (·.methodList),
      1 ≤ start.toNat ∧ start.toNat ≤ 3 := by
    rw [hlists]
    simp
  have hstarts : StartsRuns (parts.tables.rows TypeDefRow) 2 :=
    ⟨List.pairwise_map.mp (Array.toList_map ▸ hsorted),
      fun type htype => hwithin _ (Array.mem_map_of_mem htype)⟩
  have hfirst := congrArg (·[0]?) hlists
  simp only [Array.getElem?_map] at hfirst
  obtain ⟨first, hfirst, hstart⟩ := Option.map_eq_some_iff.mp hfirst
  obtain ⟨-, -, hmodule⟩ := ownersOf_shares_methods hfirst hstarts (by decide) parts.strings #[]
  obtain ⟨-, -, hshares⟩ := hmodule _ parts module hparts rfl hcount hread
  rw [hstart] at hshares
  exact ⟨parts, module, hparts, hread, hlists, hcount, hshares, hshares.listed⟩

end Module

end PortablePdb
