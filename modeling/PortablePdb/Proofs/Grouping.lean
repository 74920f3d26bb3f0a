import PortablePdb.Proofs.LoadedRows
import PortablePdb.Proofs.Resilience

namespace PortablePdb

namespace Module

/-- How a module comes about: it is read from an image, or it is built up. -/
inductive IsMade : Module → Prop
  | read {image : Image} {module : Module} (hread : ofImage image = .ok module) : IsMade module
  | named (name : String) : IsMade (Module.named name)
  | addType {module : Module} (hmodule : IsMade module) (namespaceName name : String) :
      IsMade (module.addType namespaceName name).1
  | addNestedType {module : Module} (hmodule : IsMade module) (enclosing : Token) (name : String) :
      IsMade (module.addNestedType enclosing name).1
  | addMethod {module : Module} (hmodule : IsMade module) (declaringType : Token) (name : String)
      (code : Option MethodCode) : IsMade (module.addMethod declaringType name code).1
  | setRowCount {module : Module} (hmodule : IsMade module) (table : Table) (rows : UInt32) :
      IsMade (module.setRowCount table rows)
  | setEntryPoint {module : Module} (hmodule : IsMade module) (token : Token) :
      IsMade (module.setEntryPoint token)
  | setCodeView {module : Module} (hmodule : IsMade module) (codeView : CodeView) :
      IsMade (module.setCodeView codeView)

theorem NumbersTypes.pushType {module : Module} (hmodule : module.NumbersTypes)
    (namespaceName name : String) (enclosing : Option Token) :
    (module.pushType namespaceName name enclosing).1.NumbersTypes := by
  intro i type htype
  rw [Module.pushType, Array.getElem?_push] at htype
  split at htype
  · next hlast =>
    cases htype
    rw [hlast]
  · exact hmodule i type htype

/-- However a module comes about, its types have the tokens of their places. -/
theorem IsMade.numbersTypes {module : Module} (hmodule : module.IsMade) : module.NumbersTypes := by
  induction hmodule with
  | read hread => exact numbersTypes_of_ofImage hread
  | named name =>
    refine NumbersTypes.pushType (fun i type htype => ?_) _ _ _
    rw [Array.getElem?_empty] at htype
    cases htype
  | addType _ namespaceName name ih => exact ih.pushType _ _ _
  | addNestedType _ enclosing name ih => exact ih.pushType _ _ _
  | addMethod _ declaringType name code ih =>
    intro i type htype
    simp only [Module.addMethod] at htype
    split at htype
    · exact ih i type htype
    · rw [Array.getElem?_modify] at htype
      split at htype
      · obtain ⟨before, hbefore, rfl⟩ := Option.map_eq_some_iff.mp htype
        exact ih i before hbefore
      · exact ih i type htype
  | setRowCount _ table rows ih => exact ih
  | setEntryPoint _ token ih => exact ih
  | setCodeView _ codeView ih => exact ih

end Module

namespace SourceFile

/-- Adds a type to a file if that is the file with a path. -/
def extend (path : String) (type : Token) (file : SourceFile) : SourceFile :=
  if file.path = path then { file with types := file.types ++ [type] } else file

@[simp] theorem path_extend (path : String) (type : Token) (file : SourceFile) :
    (extend path type file).path = file.path := by
  unfold extend
  split <;> rfl

@[simp] theorem map_path_extend (path : String) (type : Token) (files : List SourceFile) :
    (files.map (extend path type)).map (·.path) = files.map (·.path) := by
  rw [List.map_map]
  exact List.map_congr_left fun file _ => path_extend path type file

/-- A type with a path that a file has comes last in that file. -/
theorem addType_of_mem {path : String} {type : Token} {files : List SourceFile}
    (hfiles : (files.map (·.path)).Nodup) (hpath : path ∈ files.map (·.path)) :
    addType path type files = files.map (extend path type) := by
  induction files with
  | nil => cases hpath
  | cons file files ih =>
    obtain ⟨hfile, hrest⟩ := List.nodup_cons.mp hfiles
    rw [addType, List.map_cons, extend]
    split
    · next hsame =>
      have hothers : files.map (extend path type) = files.map id := by
        refine List.map_congr_left fun other hother => if_neg fun hagain => hfile ?_
        exact List.mem_map.mpr ⟨other, hother, hagain.trans hsame.symm⟩
      rw [hothers, List.map_id]
    · next hne => rw [ih hrest ((List.mem_cons.mp hpath).resolve_left (Ne.symm hne))]

theorem addType_of_notMem {path : String} {type : Token} {files : List SourceFile}
    (hpath : path ∉ files.map (·.path)) :
    addType path type files = files ++ [⟨path, [type]⟩] := by
  induction files with
  | nil => rfl
  | cons file files ih =>
    rw [List.map_cons, List.mem_cons, not_or] at hpath
    rw [addType, if_neg (Ne.symm hpath.1), ih hpath.2, List.cons_append]

/-- A path has a row in front of all rows of another path. -/
def Precedes (placements : List (String × Nat)) (earlier later : String) : Prop :=
  ∃ row, (earlier, row) ∈ placements ∧ ∀ other, (later, other) ∈ placements → row < other

theorem Precedes.concat {placements : List (String × Nat)} {earlier later path : String} {row : Nat}
    (hprecedes : Precedes placements earlier later)
    (hrow : ∀ placement ∈ placements, placement.2 < row) :
    Precedes (placements ++ [(path, row)]) earlier later := by
  obtain ⟨first, hfirst, hlater⟩ := hprecedes
  refine ⟨first, List.mem_append_left _ hfirst, fun other hother => ?_⟩
  rcases List.mem_append.mp hother with hold | hnew
  · exact hlater other hold
  · cases List.mem_singleton.mp hnew
    exact hrow _ hfirst

/-- Files that types with paths and rows are put into one after the other: each path has one file,
with the types of this path in their order, and files stand in the order of their first rows. -/
structure Groups (placements : List (String × Nat)) (files : List SourceFile) : Prop where
  nodup : (files.map (·.path)).Nodup
  mem_paths : ∀ path, path ∈ files.map (·.path) ↔ path ∈ placements.map (·.1)
  types_eq : ∀ file ∈ files, file.types =
    (placements.filter (·.1 = file.path)).map fun placement => .typeDef placement.2.toUInt32
  ordered : files.Pairwise fun earlier later => Precedes placements earlier.path later.path

theorem groups_empty : Groups [] [] :=
  ⟨.nil, fun _ => Iff.rfl, nofun, .nil⟩

namespace Groups

variable {placements : List (String × Nat)} {files : List SourceFile} {path : String} {row : Nat}

theorem addType_of_mem (hgroups : Groups placements files) (hpath : path ∈ files.map (·.path))
    (hrow : ∀ placement ∈ placements, placement.2 < row) :
    Groups (placements ++ [(path, row)]) (addType path (.typeDef row.toUInt32) files) := by
  have hnodup := nodup_paths_addType path (.typeDef row.toUInt32) hgroups.nodup
  rw [SourceFile.addType_of_mem hgroups.nodup hpath] at hnodup ⊢
  refine ⟨hnodup, fun other => ?_, fun file hfile => ?_, ?_⟩
  · rw [map_path_extend, hgroups.mem_paths, List.map_append, List.mem_append, List.map_singleton,
      List.mem_singleton]
    refine ⟨.inl, fun hother => hother.elim id ?_⟩
    rintro rfl
    exact (hgroups.mem_paths other).mp hpath
  · obtain ⟨before, hbefore, rfl⟩ := List.mem_map.mp hfile
    rw [path_extend, List.filter_append, List.map_append, ← hgroups.types_eq before hbefore, extend]
    split
    · next hsame => simp [hsame]
    · next hne => simp [Ne.symm hne]
  · refine List.pairwise_map.mpr (hgroups.ordered.imp fun hprecedes => ?_)
    rw [path_extend, path_extend]
    exact hprecedes.concat hrow

theorem addType_of_notMem (hgroups : Groups placements files) (hpath : path ∉ files.map (·.path))
    (hrow : ∀ placement ∈ placements, placement.2 < row) :
    Groups (placements ++ [(path, row)]) (addType path (.typeDef row.toUInt32) files) := by
  have hnew (other : Nat) : (path, other) ∉ placements := fun hother =>
    hpath ((hgroups.mem_paths path).mpr (List.mem_map.mpr ⟨_, hother, rfl⟩))
  have hnodup := nodup_paths_addType path (.typeDef row.toUInt32) hgroups.nodup
  rw [SourceFile.addType_of_notMem hpath] at hnodup ⊢
  refine ⟨hnodup, fun other => ?_, fun file hfile => ?_, ?_⟩
  · rw [List.map_append, List.map_append, List.mem_append, List.mem_append, hgroups.mem_paths,
      List.map_singleton, List.map_singleton]
  · rw [List.filter_append, List.map_append]
    rcases List.mem_append.mp hfile with hold | hlast
    · have hne : path ≠ file.path := by
        rintro rfl
        exact hpath (List.mem_map.mpr ⟨file, hold, rfl⟩)
      rw [← hgroups.types_eq file hold]
      simp [hne]
    · obtain rfl := List.mem_singleton.mp hlast
      have hnone : placements.filter (·.1 = path) = [] := by
        rw [List.filter_eq_nil_iff]
        rintro ⟨_, other⟩ hother hsame
        exact hnew other (of_decide_eq_true hsame ▸ hother)
      simp [hnone]
  · refine List.pairwise_append.mpr
      ⟨hgroups.ordered.imp fun hprecedes => hprecedes.concat hrow, List.pairwise_singleton _ _, ?_⟩
    intro file hfile last hlast
    obtain rfl := List.mem_singleton.mp hlast
    obtain ⟨⟨_, first⟩, hfirst, rfl⟩ :=
      List.mem_map.mp ((hgroups.mem_paths file.path).mp (List.mem_map.mpr ⟨file, hfile, rfl⟩))
    refine ⟨first, List.mem_append_left _ hfirst, fun other hother => ?_⟩
    rcases List.mem_append.mp hother with hagain | hadded
    · exact absurd hagain (hnew other)
    · cases List.mem_singleton.mp hadded
      exact hrow _ hfirst

/-- One more type, in a row behind all others, keeps the files in order. -/
theorem addType (hgroups : Groups placements files) (path : String)
    (hrow : ∀ placement ∈ placements, placement.2 < row) :
    Groups (placements ++ [(path, row)]) (addType path (.typeDef row.toUInt32) files) := by
  by_cases hpath : path ∈ files.map (·.path)
  · exact hgroups.addType_of_mem hpath hrow
  · exact hgroups.addType_of_notMem hpath hrow

/-- Types in ascending rows are put into files one after the other. -/
theorem foldl_addType {before after : List (String × Nat)} (hgroups : Groups before files)
    (hrows : (before ++ after).Pairwise fun earlier later => earlier.2 < later.2) :
    Groups (before ++ after) (after.foldl (fun files placement =>
      SourceFile.addType placement.1 (.typeDef placement.2.toUInt32) files) files) := by
  induction after generalizing before files with
  | nil => rwa [List.append_nil]
  | cons placement after ih =>
    have hlast := (List.pairwise_append.mp hrows).2.2
    rw [List.append_cons] at hrows ⊢
    exact ih (hgroups.addType placement.1 fun earlier hearlier =>
      hlast earlier hearlier placement List.mem_cons_self) hrows

end Groups

section Module

variable (module : Module) (decompiler : Decompiler) (nestedDirectories : Bool)

/-- A type that has its place in a source file stands in a row, and the file has a path. -/
def HasPlace (row : Nat) (path : String) : Prop :=
  0 < row ∧ ∃ type, module.types[row - 1]? = some type ∧ isIncluded decompiler type ∧
    VirtualPath.ofType nestedDirectories type.namespaceName type.name = path

/-- The paths and rows of all types that have their places in source files. -/
def placements : List (String × Nat) :=
  ((module.types.toList.zipIdx 1).filter (isIncluded decompiler ·.1)).map fun (type, row) =>
    (VirtualPath.ofType nestedDirectories type.namespaceName type.name, row)

theorem mem_placements {path : String} {row : Nat} :
    (path, row) ∈ placements module decompiler nestedDirectories ↔
      HasPlace module decompiler nestedDirectories row path := by
  simp only [placements, HasPlace, List.mem_map, List.mem_filter, Prod.mk.injEq]
  constructor
  · rintro ⟨⟨type, _⟩, ⟨hmem, hincluded⟩, rfl, rfl⟩
    obtain ⟨hpos, htype⟩ := List.mem_zipIdx_iff_le_and_getElem?_sub.mp hmem
    exact ⟨hpos, type, Array.getElem?_toList ▸ htype, hincluded, rfl⟩
  · rintro ⟨hpos, type, htype, hincluded, rfl⟩
    exact ⟨(type, row), ⟨List.mem_zipIdx_iff_le_and_getElem?_sub.mpr
      ⟨hpos, Array.getElem?_toList ▸ htype⟩, hincluded⟩, rfl, rfl⟩

theorem pairwise_placements :
    (placements module decompiler nestedDirectories).Pairwise
      fun earlier later => earlier.2 < later.2 := by
  refine List.pairwise_map.mpr (List.Pairwise.filter _ (List.pairwise_map.mp ?_))
  rw [List.zipIdx_map_snd]
  exact List.pairwise_lt_range'

variable {module}

/-- Source files are filled by rows. -/
theorem ofModule_eq (hmodule : module.NumbersTypes) :
    ofModule module decompiler nestedDirectories =
      (placements module decompiler nestedDirectories).foldl (fun files placement =>
        addType placement.1 (.typeDef placement.2.toUInt32) files) [] := by
  have hincluded : module.topLevelTypes.filter (isIncluded decompiler) =
      ((module.types.toList.zipIdx 1).filter (isIncluded decompiler ·.1)).map (·.1) :=
    calc module.topLevelTypes.filter (isIncluded decompiler)
      _ = module.types.toList.filter (isIncluded decompiler) := by
        rw [Module.topLevelTypes, List.filter_filter]
        refine List.filter_congr fun type _ => ?_
        cases hnested : type.isNested <;> simp [isIncluded, hnested]
      _ = ((module.types.toList.zipIdx 1).map (·.1)).filter (isIncluded decompiler) := by
        rw [List.zipIdx_map_fst]
      _ = _ := List.filter_map
  rw [ofModule, hincluded, placements, List.foldl_map, List.foldl_map]
  refine List.foldl_ext _ _ _ ?_
  rintro files ⟨type, row⟩ hmem
  obtain ⟨hpos, htype⟩ := List.mem_zipIdx_iff_le_and_getElem?_sub.mp (List.mem_filter.mp hmem).1
  rw [Array.getElem?_toList] at htype
  have hrow : row - 1 + 1 = row := by omega
  rw [hmodule _ type htype, hrow]

/-- The source files of a module are the groups of its placed types. -/
theorem groups_ofModule (hmodule : module.NumbersTypes) :
    Groups (placements module decompiler nestedDirectories)
      (ofModule module decompiler nestedDirectories) := by
  rw [ofModule_eq decompiler nestedDirectories hmodule]
  exact groups_empty.foldl_addType (pairwise_placements module decompiler nestedDirectories)

end Module

variable {module : Module} {decompiler : Decompiler} {nestedDirectories : Bool}

namespace HasPlace

variable {row : Nat} {path other : String}

theorem path_eq (hplace : HasPlace module decompiler nestedDirectories row path)
    (hother : HasPlace module decompiler nestedDirectories row other) : path = other := by
  obtain ⟨_, type, htype, _, rfl⟩ := hplace
  obtain ⟨_, again, hagain, _, rfl⟩ := hother
  cases htype.symm.trans hagain
  rfl

/-- As long as rows fit tokens, the token of a placed type has its row. -/
theorem row_token (hplace : HasPlace module decompiler nestedDirectories row path)
    (hsize : module.types.size < 0x1000000) : (Token.typeDef row.toUInt32).row.toNat = row := by
  obtain ⟨hpos, type, htype, -⟩ := hplace
  have hlt := (Array.getElem?_eq_some_iff.mp htype).1
  exact Token.toNat_row_ofParts_toUInt32 (by omega)

end HasPlace

/-- The tokens of a file are those of all rows that have their places in it. -/
theorem Groups.exists_rows {files : List SourceFile}
    (hgroups : Groups (placements module decompiler nestedDirectories) files) {file : SourceFile}
    (hfile : file ∈ files) :
    ∃ rows : List Nat, rows ≠ [] ∧ rows.Pairwise (· < ·) ∧
      (∀ row, row ∈ rows ↔ HasPlace module decompiler nestedDirectories row file.path) ∧
      file.types = rows.map fun row => .typeDef row.toUInt32 := by
  have hmem (row : Nat) : row ∈ ((placements module decompiler nestedDirectories).filter
      (·.1 = file.path)).map (·.2) ↔
      HasPlace module decompiler nestedDirectories row file.path := by
    rw [← mem_placements]
    simp
  refine ⟨_, ?_, List.pairwise_map.mpr ((pairwise_placements ..).filter _), hmem, ?_⟩
  · obtain ⟨⟨_, row⟩, hplaced, rfl⟩ := List.mem_map.mp
      ((hgroups.mem_paths file.path).mp (List.mem_map.mpr ⟨file, hfile, rfl⟩))
    exact List.ne_nil_of_mem ((hmem row).mpr ((mem_placements ..).mp hplaced))
  · rw [hgroups.types_eq file hfile, List.map_map]
    rfl

section Tokens

variable {files : List SourceFile} {file : SourceFile}

theorem Groups.mem_types (hgroups : Groups (placements module decompiler nestedDirectories) files)
    (hfile : file ∈ files) {token : Token} :
    token ∈ file.types ↔ ∃ row, HasPlace module decompiler nestedDirectories row file.path ∧
      .typeDef row.toUInt32 = token := by
  obtain ⟨rows, -, -, hrows, htypes⟩ := hgroups.exists_rows hfile
  simp only [htypes, List.mem_map, hrows]

theorem Groups.pairwise_types
    (hgroups : Groups (placements module decompiler nestedDirectories) files)
    (hsize : module.types.size < 0x1000000) (hfile : file ∈ files) :
    file.types.Pairwise fun earlier later => earlier.row < later.row := by
  obtain ⟨rows, -, hsorted, hrows, htypes⟩ := hgroups.exists_rows hfile
  rw [htypes]
  refine List.pairwise_map.mpr (hsorted.imp_of_mem fun hearlier hlater hlt => ?_)
  rw [UInt32.lt_iff_toNat_lt, ((hrows _).mp hearlier).row_token hsize,
    ((hrows _).mp hlater).row_token hsize]
  exact hlt

/-- No token stands twice in a file, or in two files. -/
theorem Groups.nodup_types (hgroups : Groups (placements module decompiler nestedDirectories) files)
    (hsize : module.types.size < 0x1000000) : (files.flatMap (·.types)).Nodup := by
  refine List.nodup_flatMap.mpr ⟨fun file hfile => ?_, ?_⟩
  · exact (hgroups.pairwise_types hsize hfile).imp fun hlt heq => by
      rw [heq] at hlt
      exact UInt32.lt_irrefl _ hlt
  · refine (List.pairwise_map.mp hgroups.nodup).imp_of_mem fun hearlier hlater hne => ?_
    intro token hfirst hsecond
    obtain ⟨row, hrow, rfl⟩ := (hgroups.mem_types hearlier).mp hfirst
    obtain ⟨other, hother, htoken⟩ := (hgroups.mem_types hlater).mp hsecond
    have hsame := congrArg (·.row.toNat) htoken
    simp only [hrow.row_token hsize, hother.row_token hsize] at hsame
    exact hne (hrow.path_eq (hsame ▸ hother))

/-- The file of a placed type is the one with its path. -/
theorem Groups.token_mem_iff
    (hgroups : Groups (placements module decompiler nestedDirectories) files)
    (hmodule : module.NumbersTypes) (hsize : module.types.size < 0x1000000) (hfile : file ∈ files)
    {type : ModuleType} (htype : type ∈ module.types) :
    type.token ∈ file.types ↔ isIncluded decompiler type ∧
      VirtualPath.ofType nestedDirectories type.namespaceName type.name = file.path := by
  obtain ⟨i, hi⟩ := Array.getElem?_of_mem htype
  rw [hgroups.mem_types hfile, hmodule i type hi]
  have hlt := (Array.getElem?_eq_some_iff.mp hi).1
  constructor
  · rintro ⟨row, hrow, htoken⟩
    have hsucc : (Token.typeDef (i + 1).toUInt32).row.toNat = i + 1 :=
      Token.toNat_row_ofParts_toUInt32 (by omega)
    have hsame : row = i + 1 := by rw [← hsucc, ← htoken, hrow.row_token hsize]
    obtain ⟨_, placed, hplaced, hincluded⟩ := hrow
    rw [hsame, Nat.add_sub_cancel, hi] at hplaced
    cases hplaced
    exact hincluded
  · intro hincluded
    exact ⟨i + 1, ⟨Nat.succ_pos i, type, hi, hincluded⟩, rfl⟩

end Tokens

/-- Grouping the types of a module into source files is a partition, however the module came about.
Files have paths of their own and stand in the order of their first types. A file has the types in
all rows with its path, once each and in ascending order, and no others; each type that has its
place in a source file has it in one of these files. As long as rows fit tokens, the same holds of
the tokens themselves. -/
theorem ofModule_partitions (hmade : module.IsMade) (decompiler : Decompiler)
    (nestedDirectories : Bool) :
    ((ofModule module decompiler nestedDirectories).map (·.path)).Nodup ∧
    ((ofModule module decompiler nestedDirectories).Pairwise fun earlier later =>
      ∃ row, HasPlace module decompiler nestedDirectories row earlier.path ∧
        ∀ other, HasPlace module decompiler nestedDirectories other later.path → row < other) ∧
    (∀ row path, HasPlace module decompiler nestedDirectories row path →
      ∃ file ∈ ofModule module decompiler nestedDirectories, file.path = path) ∧
    (∀ file ∈ ofModule module decompiler nestedDirectories,
      ∃ rows : List Nat, rows ≠ [] ∧ rows.Pairwise (· < ·) ∧
        (∀ row, row ∈ rows ↔ HasPlace module decompiler nestedDirectories row file.path) ∧
        file.types = rows.map fun row => .typeDef row.toUInt32) ∧
    (module.types.size < 0x1000000 →
      ((ofModule module decompiler nestedDirectories).flatMap (·.types)).Nodup ∧
      ∀ file ∈ ofModule module decompiler nestedDirectories,
        file.types.Pairwise (fun earlier later => earlier.row < later.row) ∧
        ∀ type ∈ module.types, type.token ∈ file.types ↔ isIncluded decompiler type ∧
          VirtualPath.ofType nestedDirectories type.namespaceName type.name = file.path) := by
  have hgroups := groups_ofModule decompiler nestedDirectories hmade.numbersTypes
  refine ⟨hgroups.nodup, ?_, ?_, fun file hfile => hgroups.exists_rows hfile, fun hsize => ?_⟩
  · simpa only [Precedes, mem_placements] using hgroups.ordered
  · intro row path hplace
    have hpath := (hgroups.mem_paths path).mpr
      (List.mem_map.mpr ⟨_, (mem_placements ..).mpr hplace, rfl⟩)
    exact List.mem_map.mp hpath
  · exact ⟨hgroups.nodup_types hsize, fun file hfile => ⟨hgroups.pairwise_types hsize hfile,
      fun type htype => hgroups.token_mem_iff hmade.numbersTypes hsize hfile htype⟩⟩

/-- A module with two lists of one name, and between them a nested type, an attribute that compilers
make, a type to be hidden and the program. -/
def listModule : Module :=
  let module := ((Module.named "App.dll").addType "App" "List`1").1
  let module := (module.addNestedType (.typeDef 2) "Enumerator").1
  let module := (module.addType "Microsoft.CodeAnalysis" "EmbeddedAttribute").1
  let module := (module.addType "App" "Hidden").1
  let module := (module.addType "" "Program").1
  (module.addType "App" "List`2").1

theorem isMade_listModule : listModule.IsMade :=
  ((((((Module.IsMade.named _).addType _ _).addNestedType _ _).addType _ _).addType _ _).addType
    _ _).addType _ _

/-- Both lists of the module share a file, in front of that of the program. -/
theorem ofModule_partitions_listModule :
    listModule.IsMade ∧
      ofModule listModule ({ hidden := [.typeDef 5] } : Manifest).decompiler true =
        [⟨"App/List.cs", [.typeDef 2, .typeDef 7]⟩, ⟨"Program.cs", [.typeDef 6]⟩] ∧
      ((ofModule listModule ({ hidden := [.typeDef 5] } : Manifest).decompiler true).flatMap
        (·.types)).Nodup :=
  ⟨isMade_listModule, by decide,
    ((ofModule_partitions isMade_listModule _ true).2.2.2.2 (by decide)).1⟩

/-- One more type at the top level goes into the file with its path, or into none. -/
theorem ofModule_addType (module : Module) (decompiler : Decompiler) (nestedDirectories : Bool)
    (namespaceName name : String) :
    let token := Token.typeDef (module.types.size + 1).toUInt32
    ofModule (module.addType namespaceName name).1 decompiler nestedDirectories =
      if isIncluded decompiler ⟨token, namespaceName, name, none, #[]⟩ then
        addType (VirtualPath.ofType nestedDirectories namespaceName name) token
          (ofModule module decompiler nestedDirectories)
      else ofModule module decompiler nestedDirectories := by
  intro token
  have htypes : (module.addType namespaceName name).1.topLevelTypes =
      module.topLevelTypes ++ [⟨token, namespaceName, name, none, #[]⟩] := by
    simp only [Module.topLevelTypes, Module.addType, Module.pushType, Array.toList_push,
      List.filter_append]
    rfl
  rw [ofModule, htypes, List.filter_append, List.foldl_append, ← ofModule, List.filter_singleton]
  cases isIncluded decompiler ⟨token, namespaceName, name, none, #[]⟩ <;> rfl

/-- A module with a type, and many types behind it that compilers make. -/
def crowd (count : Nat) : Module :=
  Nat.repeat (fun module => (module.addType "" "<Module>").1) count
    ((Module.named "A.dll").addType "" "A").1

theorem isMade_crowd (count : Nat) : (crowd count).IsMade := by
  induction count with
  | zero => exact (Module.IsMade.named _).addType _ _
  | succ count ih => exact ih.addType _ _

theorem size_crowd (count : Nat) : (crowd count).types.size = count + 2 := by
  induction count with
  | zero => rfl
  | succ count ih =>
    change ((crowd count).types.push _).size = count + 1 + 2
    rw [Array.size_push, ih]

theorem ofModule_crowd (count : Nat) :
    ofModule (crowd count) ({} : Manifest).decompiler true = [⟨"A.cs", [.typeDef 2]⟩] := by
  induction count with
  | zero => decide
  | succ count ih =>
    change ofModule ((crowd count).addType "" "<Module>").1 ({} : Manifest).decompiler true = _
    rw [ofModule_addType, if_neg, ih]
    simp [isIncluded, isInjected]

/-- The token of a type whose row does not fit it has another row, and so the tokens of a file can
be out of order. -/
theorem ofModule_descends :
    ((crowd 0xFFFFFD).addType "" "A").1.IsMade ∧
      ofModule ((crowd 0xFFFFFD).addType "" "A").1 ({} : Manifest).decompiler true =
        [⟨"A.cs", [.typeDef 2, .typeDef 0]⟩] ∧
      ¬ [Token.typeDef 2, Token.typeDef 0].Pairwise fun earlier later =>
        earlier.row < later.row := by
  refine ⟨(isMade_crowd _).addType _ _, ?_, by decide⟩
  rw [ofModule_addType, ofModule_crowd, size_crowd]
  decide

end SourceFile

end PortablePdb
