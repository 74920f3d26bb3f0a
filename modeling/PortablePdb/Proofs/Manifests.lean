import PortablePdb.Decompiled.Manifest
import PortablePdb.Proofs.Arrangements
import PortablePdb.Proofs.Numerals

namespace PortablePdb

open Json

theorem bind_eq_some {α β : Type} {x : Option α} {f : α → Option β} {a : α} {b : β}
    (hx : x = some a) (hf : f a = some b) : (x >>= f) = some b := by
  rw [hx]
  exact hf

theorem Token.readsBack (token : Token) : ReadsBack Token.ofJson? token.toJson token :=
  fun _ => token.ofText?_toText

theorem Token.readsBack_list (tokens : List Token) :
    ReadsBack (list? Token.ofJson?) (ofList Token.toJson tokens) tokens :=
  Json.readsBack_list fun token _ => token.readsBack

theorem SequencePoint.readsBack (point : SequencePoint) :
    ReadsBack SequencePoint.ofJson? point.toJson point := by
  intro arrangement
  obtain ⟨offset, isHidden, startLine, startColumn, endLine, endColumn, document⟩ := point
  refine bind_eq_some (fields?_rearrange arrangement (by dsimp only; split <;> simp) _) ?_
  refine bind_eq_some (required_rearrange arrangement rfl (readsBack_word32 offset)) ?_
  refine bind_eq_some (optional_rearrange arrangement rfl (readsBack_bool isHidden)) ?_
  refine bind_eq_some (optional_rearrange arrangement rfl (readsBack_word32 startLine)) ?_
  refine bind_eq_some (optional_rearrange arrangement rfl (readsBack_word16 startColumn)) ?_
  refine bind_eq_some (optional_rearrange arrangement rfl (readsBack_word32 endLine)) ?_
  refine bind_eq_some (optional_rearrange arrangement rfl (readsBack_word16 endColumn)) ?_
  refine bind_eq_some (optional_rearrange_default arrangement ?_ (readsBack_word32 document)) rfl
  dsimp only
  split <;> rfl

theorem Await.readsBack (await : Await) : ReadsBack Await.ofJson? await.toJson await := by
  intro arrangement
  refine bind_eq_some (fields?_rearrange arrangement (by simp) _) ?_
  refine bind_eq_some (required_rearrange arrangement rfl (readsBack_word32 await.yieldOffset)) ?_
  refine bind_eq_some (required_rearrange arrangement rfl (readsBack_word32 await.resumeOffset)) ?_
  exact bind_eq_some (optional_rearrange arrangement rfl await.resumeMethod.readsBack) rfl

theorem AsyncStepping.readsBack (stepping : AsyncStepping) :
    ReadsBack AsyncStepping.ofJson? stepping.toJson stepping := by
  intro arrangement
  obtain ⟨catchHandler, awaits⟩ := stepping
  have hhandler : ReadsBack (nullable? word32?) (ofOption (fun n => .nat n.toNat) catchHandler)
      catchHandler := by
    cases catchHandler with
    | none => exact readsBack_null
    | some offset => exact (readsBack_word32 offset).nullable nofun
  refine bind_eq_some (fields?_rearrange arrangement (by simp) _) ?_
  refine bind_eq_some (optional_rearrange arrangement rfl hhandler) ?_
  exact bind_eq_some (optional_rearrange arrangement rfl <|
    Json.readsBack_list fun await _ => await.readsBack) rfl

theorem DecompiledFunction.readsBack (function : DecompiledFunction) :
    ReadsBack DecompiledFunction.ofJson? function.toJson function := by
  intro arrangement
  obtain ⟨id, method, moveNext, isAsync, stepping, hoistedLocals⟩ := function
  refine bind_eq_some (fields?_rearrange arrangement ?_ _) ?_
  · cases moveNext <;> cases stepping <;> simp
  refine bind_eq_some (required_rearrange arrangement rfl (readsBack_word32 id)) ?_
  refine bind_eq_some (required_rearrange arrangement rfl method.readsBack) ?_
  refine bind_eq_some (optional_rearrange_option arrangement moveNext ?_ Token.readsBack nofun) ?_
  · cases moveNext <;> cases stepping <;> rfl
  refine bind_eq_some (optional_rearrange arrangement ?_ (readsBack_bool isAsync)) ?_
  · cases moveNext <;> rfl
  refine bind_eq_some (optional_rearrange_option arrangement stepping ?_ AsyncStepping.readsBack
    nofun) ?_
  · cases moveNext <;> cases stepping <;> rfl
  refine bind_eq_some (optional_rearrange arrangement ?_ (readsBack_word32 hoistedLocals)) rfl
  cases moveNext <;> cases stepping <;> rfl

namespace PointMap

theorem ext {map other : PointMap} (hentries : map.entries = other.entries) : map = other := by
  cases map
  cases other
  cases hentries
  rfl

/-- An entry of a function without one is put in between. -/
theorem perm_insertEntry {function : UInt32} {points : List SequencePoint}
    {entries : List (UInt32 × List SequencePoint)} (hnew : function ∉ entries.map Prod.fst) :
    (insertEntry function points entries).Perm ((function, points) :: entries) := by
  induction entries with
  | nil => exact .refl _
  | cons entry entries ih =>
    rw [List.map_cons, List.mem_cons, not_or] at hnew
    rw [insertEntry, if_neg hnew.1]
    split
    · exact .refl _
    · exact ((ih hnew.2).cons entry).trans (.swap _ _ _)

/-- Entries of different functions are all there, whatever their order. -/
theorem perm_foldl_insert {entries : List (UInt32 × List SequencePoint)} {map : PointMap}
    (hfunctions : ((entries ++ map.entries).map Prod.fst).Nodup) :
    (entries.foldl (fun map (function, points) => map.insert function points) map).entries.Perm
      (entries ++ map.entries) := by
  induction entries generalizing map with
  | nil => exact .refl _
  | cons entry entries ih =>
    have hmoved : (entries ++ entry :: map.entries).Perm (entry :: entries ++ map.entries) :=
      List.perm_middle
    have hnew : entry.1 ∉ map.entries.map Prod.fst := by
      rw [List.cons_append, List.map_cons, List.nodup_cons, List.map_append, List.mem_append,
        not_or] at hfunctions
      exact hfunctions.1.2
    have hinsert : (map.insert entry.1 entry.2).entries.Perm (entry :: map.entries) :=
      perm_insertEntry hnew
    have hperm := (hinsert.append_left entries).trans hmoved
    exact (ih ((hperm.map Prod.fst).nodup_iff.mpr hfunctions)).trans hperm

/-- A map comes of its entries in whatever order. -/
theorem ofList_eq {entries : List (UInt32 × List SequencePoint)} {map : PointMap}
    (hperm : entries.Perm map.entries) : ofList entries = map := by
  have hfunctions : (map.entries.map Prod.fst).Nodup :=
    List.pairwise_map.mpr (map.ascending.imp fun hlt => UInt32.ne_of_lt hlt)
  have hempty : entries ++ empty.entries = entries := List.append_nil entries
  have hofList : (ofList entries).entries.Perm map.entries := by
    have hdistinct : ((entries ++ empty.entries).map Prod.fst).Nodup := by
      rw [hempty]
      exact (hperm.map Prod.fst).nodup_iff.mpr hfunctions
    have hfold := perm_foldl_insert hdistinct
    rw [hempty] at hfold
    exact hfold.trans hperm
  refine ext (hofList.eq_of_pairwise ?_ (ofList entries).ascending map.ascending)
  intro entry other _ _ hlt hgt
  exact absurd hgt (UInt32.lt_asymm hlt)

end PointMap

/-- What comes of values in another order comes in another order. -/
theorem perm_mapM {α β : Type} {f : α → Option β} {values others : List α} {results : List β}
    (hperm : values.Perm others) (hresults : others.mapM f = some results) :
    ∃ found, values.mapM f = some found ∧ found.Perm results := by
  induction hperm generalizing results with
  | nil => exact ⟨results, hresults, .refl _⟩
  | cons value _ ih =>
    rw [List.mapM_cons] at hresults
    obtain ⟨first, hfirst, hresults⟩ := Option.bind_eq_some_iff.mp hresults
    obtain ⟨rest, hrest, ⟨⟩⟩ := Option.bind_eq_some_iff.mp hresults
    obtain ⟨found, hfound, hperm⟩ := ih hrest
    refine ⟨first :: found, ?_, hperm.cons first⟩
    rw [List.mapM_cons]
    exact bind_eq_some hfirst (bind_eq_some hfound rfl)
  | swap first second values =>
    rw [List.mapM_cons, List.mapM_cons] at hresults
    obtain ⟨one, hone, hresults⟩ := Option.bind_eq_some_iff.mp hresults
    obtain ⟨_, hboth, ⟨⟩⟩ := Option.bind_eq_some_iff.mp hresults
    obtain ⟨two, htwo, hlater⟩ := Option.bind_eq_some_iff.mp hboth
    obtain ⟨rest, hrest, ⟨⟩⟩ := Option.bind_eq_some_iff.mp hlater
    refine ⟨two :: one :: rest, ?_, .swap _ _ _⟩
    rw [List.mapM_cons, List.mapM_cons]
    exact bind_eq_some htwo (bind_eq_some (bind_eq_some hone (bind_eq_some hrest rfl)) rfl)
  | trans _ _ ihFirst ihSecond =>
    obtain ⟨middle, hmiddle, hsecond⟩ := ihSecond hresults
    obtain ⟨found, hfound, hfirst⟩ := ihFirst hmiddle
    exact ⟨found, hfound, hfirst.trans hsecond⟩

namespace PointTable

/-- The points of a function in a member of an object. -/
def entryOf? (member : String × Json) : Option (UInt32 × List SequencePoint) := do
  return (← functionOf? member.1, ← list? SequencePoint.ofJson? member.2)

/-- The member of an object that holds the points of a function. -/
def memberOf (entry : UInt32 × List SequencePoint) : String × Json :=
  (functionName entry.1, ofList SequencePoint.toJson entry.2)

theorem mapM_entryOf? (arrangement : Arrangement) (entries : List (UInt32 × List SequencePoint)) :
    (rearrangeMembers arrangement (entries.map memberOf)).mapM entryOf? = some entries := by
  rw [rearrangeMembers_eq]
  induction entries with
  | nil => rfl
  | cons entry entries ih =>
    have hpoints : ReadsBack (list? SequencePoint.ofJson?) (ofList SequencePoint.toJson entry.2)
        entry.2 := Json.readsBack_list fun point _ => point.readsBack
    rw [List.map_cons, List.map_cons, List.mapM_cons]
    refine bind_eq_some ?_ (bind_eq_some ih rfl)
    exact bind_eq_some (functionOf?_functionName entry.1) (bind_eq_some (hpoints arrangement) rfl)

theorem readsBack_map (map : PointMap) :
    ReadsBack mapOf? (.object (map.entries.map memberOf)) map := by
  intro arrangement
  obtain ⟨entries, hentries, hperm⟩ :=
    perm_mapM (arrangement.perm _) (mapM_entryOf? arrangement map.entries)
  exact bind_eq_some hentries (congrArg some (PointMap.ofList_eq hperm))

theorem readsBack (table : PointTable) : ReadsBack ofJson? table.toJson table := by
  intro arrangement
  cases table with
  | points map =>
    rw [toJson, rearrange_object, arranged_singleton]
    exact congrArg (Option.map points) (readsBack_map map arrangement)
  | omitted reason =>
    rw [toJson, rearrange_object, arranged_singleton]
    rfl

end PointTable

namespace NodeKind

/-- The tag of a kind and its fields do not have the names of what a node has besides them. -/
theorem nodup_names (kind : NodeKind) :
    ("kind" :: (kind.toMembers.2.map Prod.fst ++ ["function", "children"])).Nodup := by
  cases kind <;> simp [toMembers]

theorem readsBack_function (function : Option UInt32) :
    ReadsBack (nullable? word32?) (toMembers.function function) function := by
  cases function with
  | none => exact readsBack_null
  | some function => exact (readsBack_word32 function).nullable nofun

theorem lookup_toMembers (kind : NodeKind) : kind.toMembers.2.lookup "function" = none ∧
    kind.toMembers.2.lookup "children" = none := by
  cases kind <;> exact ⟨rfl, rfl⟩

/-- The fields of a kind have no parts. -/
theorem isReadable_rearrange (kind : NodeKind) (arrangement : Arrangement) :
    ∀ member ∈ kind.toMembers.2, (rearrange arrangement member.2).isReadable = true := by
  have hfunction (function : Option UInt32) :
      (rearrange arrangement (toMembers.function function)).isReadable = true := by
    cases function <;> rfl
  cases kind <;> simp [toMembers, rearrange, isReadable, hfunction]

/-- A kind is found among the members of a node, whatever else the node has. -/
theorem ofMembers?_arranged {kind : NodeKind} {rest : List (String × Json)}
    (arrangement : Arrangement)
    (hnames : ((("kind", .string kind.toMembers.1) :: (kind.toMembers.2 ++ rest)).map
      Prod.fst).Nodup) :
    ofMembers? (arranged arrangement
      (("kind", .string kind.toMembers.1) :: (kind.toMembers.2 ++ rest))) = some kind := by
  have hfields (names : List String) := fields?_rearrange arrangement hnames names
  have htag : ReadsBack tagOf? (.string kind.toMembers.1) kind.toMembers.1 := fun _ => rfl
  refine bind_eq_some (hfields _) ?_
  refine bind_eq_some (required_rearrange arrangement rfl htag) ?_
  cases kind with
  | namespaceScope name =>
    refine bind_eq_some (hfields _) ?_
    exact bind_eq_some (required_rearrange arrangement rfl (readsBack_string name)) rfl
  | usingNamespace name =>
    refine bind_eq_some (hfields _) ?_
    exact bind_eq_some (required_rearrange arrangement rfl (readsBack_string name)) rfl
  | property body | indexer body =>
    refine bind_eq_some (hfields _) ?_
    exact bind_eq_some (optional_rearrange arrangement rfl (readsBack_bool body)) rfl
  | queryGroup projection key =>
    refine bind_eq_some (hfields _) ?_
    refine bind_eq_some (optional_rearrange arrangement rfl (readsBack_function projection)) ?_
    exact bind_eq_some (optional_rearrange arrangement rfl (readsBack_function key)) rfl
  | queryJoin outer inner =>
    refine bind_eq_some (hfields _) ?_
    refine bind_eq_some (optional_rearrange arrangement rfl (readsBack_function outer)) ?_
    exact bind_eq_some (optional_rearrange arrangement rfl (readsBack_function inner)) rfl
  | _ => rfl

end NodeKind

theorem Json.membersAreReadable_iff {members : List (String × Json)} :
    membersAreReadable members = true ↔ ∀ member ∈ members, member.2.isReadable = true := by
  induction members with
  | nil => simp [membersAreReadable]
  | cons member members ih => simp [membersAreReadable, ih]

namespace SyntaxNode

/-- What a node has besides its kind. -/
def otherMembers (function : Option UInt32) (children : List SyntaxNode) : List (String × Json) :=
  (function.map fun n => ("function", Json.nat n.toNat)).toList ++
    if children.isEmpty then [] else [("children", .array (toJson.allToJson children))]

/-- The members of a node. -/
def members (node : SyntaxNode) : List (String × Json) :=
  ("kind", .string node.kind.toMembers.1) ::
    (node.kind.toMembers.2 ++ otherMembers node.function node.children)

theorem toJson_eq (node : SyntaxNode) : node.toJson = .object node.members := by
  obtain ⟨kind, function, children⟩ := node
  rw [toJson]
  simp [members, otherMembers]

theorem nodup_names (node : SyntaxNode) : (node.members.map Prod.fst).Nodup := by
  obtain ⟨kind, function, children⟩ := node
  have hother : ((otherMembers function children).map Prod.fst).Sublist
      ["function", "children"] := by
    cases function <;> cases children <;> simp [otherMembers]
  have hnames : (⟨kind, function, children⟩ : SyntaxNode).members.map Prod.fst =
      "kind" :: (kind.toMembers.2.map Prod.fst ++
        (otherMembers function children).map Prod.fst) := by
    simp [members]
  rw [hnames]
  exact ((hother.append_left _).cons_cons "kind").nodup kind.nodup_names

theorem lookup_function (node : SyntaxNode) :
    node.members.lookup "function" = node.function.map fun n => .nat n.toNat := by
  obtain ⟨kind, function, children⟩ := node
  have hkind : ("function" == "kind") = false := rfl
  simp only [members, List.lookup_cons, hkind, List.lookup_append, kind.lookup_toMembers.1]
  cases function <;> cases children <;> rfl

theorem lookup_children (node : SyntaxNode) : node.members.lookup "children" =
    if node.children.isEmpty then none else some (.array (toJson.allToJson node.children)) := by
  obtain ⟨kind, function, children⟩ := node
  have hkind : ("children" == "kind") = false := rfl
  simp only [members, List.lookup_cons, hkind, List.lookup_append, kind.lookup_toMembers.2]
  cases function <;> cases children <;> rfl

theorem childrenOf?_eq (members : List (String × Json)) :
    childrenOf? members = (members.lookup "children").elim (some []) listOf? := by
  induction members with
  | nil => rfl
  | cons member members ih =>
    obtain ⟨name, value⟩ := member
    rw [childrenOf?, List.lookup_cons]
    split
    · next hname =>
      subst hname
      rfl
    · next hname =>
      rw [ih, beq_eq_false_iff_ne.mpr (Ne.symm hname)]

/-- All members of a node but its children can be read, as they have no parts. -/
theorem membersAreReadable_arranged (node : SyntaxNode) (arrangement : Arrangement) :
    membersAreReadable ((arranged arrangement node.members).filter
      fun member => member.1 ≠ "children") = true := by
  refine membersAreReadable_iff.mpr fun ⟨name, value⟩ hmember => ?_
  obtain ⟨hmember, hname⟩ := List.mem_filter.mp hmember
  obtain ⟨plain, hplain, rfl⟩ := (mem_arranged_iff arrangement).mp hmember
  have hname : name ≠ "children" := of_decide_eq_true hname
  obtain hkind | hfield := List.mem_cons.mp hplain
  · cases hkind
    rfl
  obtain hfield | hother := List.mem_append.mp hfield
  · exact node.kind.isReadable_rearrange arrangement _ hfield
  obtain hfunction | hchildren := List.mem_append.mp hother
  · obtain ⟨function, _, hfunction⟩ := Option.map_eq_some_iff.mp (Option.mem_toList.mp hfunction)
    cases hfunction
    rfl
  · split at hchildren
    · cases hchildren
    · exact absurd (congrArg Prod.fst (List.mem_singleton.mp hchildren)) hname

mutual

theorem readsBack (node : SyntaxNode) : ReadsBack ofJson? node.toJson node := by
  intro arrangement
  obtain ⟨kind, function, children⟩ := node
  have hchildren := allOf?_rearrange arrangement children
  have hnames := nodup_names ⟨kind, function, children⟩
  rw [toJson_eq, rearrange_object, ofJson?]
  rw [membersAreReadable_arranged]
  refine bind_eq_some (fields?_rearrange arrangement hnames _) ?_
  refine bind_eq_some (NodeKind.ofMembers?_arranged arrangement hnames) ?_
  refine bind_eq_some (optional_rearrange_option arrangement function (lookup_function _)
    readsBack_word32 nofun) ?_
  refine bind_eq_some (a := children) ?_ rfl
  rw [childrenOf?_eq, lookup_arranged arrangement hnames, lookup_children]
  cases children with
  | nil => rfl
  | cons child children => exact hchildren

theorem allOf?_rearrange (arrangement : Arrangement) (nodes : List SyntaxNode) :
    allOf? (rearrangeItems arrangement (toJson.allToJson nodes)) = some nodes := by
  cases nodes with
  | nil => rfl
  | cons node nodes =>
    have hnode := readsBack node arrangement
    rw [toJson.allToJson, rearrangeItems, allOf?]
    exact bind_eq_some hnode (bind_eq_some (allOf?_rearrange arrangement nodes) rfl)

end

theorem allToJson_eq (nodes : List SyntaxNode) :
    toJson.allToJson nodes = nodes.map SyntaxNode.toJson := by
  induction nodes with
  | nil => rfl
  | cons node nodes ih => rw [toJson.allToJson, ih, List.map_cons]

theorem readsBack_list (nodes : List SyntaxNode) :
    ReadsBack listOf? (ofList SyntaxNode.toJson nodes) nodes := by
  intro arrangement
  rw [ofList, ← allToJson_eq]
  exact allOf?_rearrange arrangement nodes

end SyntaxNode

theorem DecompiledFile.readsBack (file : DecompiledFile) :
    ReadsBack DecompiledFile.ofJson? file.toJson file := by
  intro arrangement
  have hfunctions : ReadsBack (list? DecompiledFunction.ofJson?)
      (ofList DecompiledFunction.toJson file.functions) file.functions :=
    Json.readsBack_list fun function _ => function.readsBack
  refine bind_eq_some (fields?_rearrange arrangement (by simp) _) ?_
  refine bind_eq_some (required_rearrange arrangement rfl (readsBack_string file.source)) ?_
  refine bind_eq_some (optional_rearrange arrangement rfl <|
    SyntaxNode.readsBack_list file.syntaxTrees) ?_
  refine bind_eq_some (optional_rearrange arrangement rfl hfunctions) ?_
  exact bind_eq_some (optional_rearrange arrangement rfl file.points.readsBack) rfl

theorem ManifestEntry.readsBack (entry : ManifestEntry) :
    ReadsBack ManifestEntry.ofJson? entry.toJson entry := by
  intro arrangement
  refine bind_eq_some (fields?_rearrange arrangement (by simp) _) ?_
  refine bind_eq_some (required_rearrange arrangement rfl <|
    Token.readsBack_list entry.types) ?_
  exact bind_eq_some (required_rearrange arrangement rfl entry.file.readsBack) rfl

namespace Manifest

theorem readsBack (manifest : Manifest) : ReadsBack Manifest.ofJson? manifest.toJson manifest := by
  intro arrangement
  have hfiles : ReadsBack (list? ManifestEntry.ofJson?)
      (ofList ManifestEntry.toJson manifest.files) manifest.files :=
    Json.readsBack_list fun entry _ => entry.readsBack
  refine bind_eq_some (fields?_rearrange arrangement (by simp) _) ?_
  refine bind_eq_some (optional_rearrange arrangement rfl <|
    Token.readsBack_list manifest.hidden) ?_
  exact bind_eq_some (optional_rearrange arrangement rfl hfiles) rfl

/-- Every manifest is read back from its JSON value, however the members of the objects in it are
arranged. The fields that are left out are those with no value: the method and the stepping of a
function that has none, the function and the children of a node that has none, and the document of a
point in the document of its method. -/
theorem read_back :
    (∀ manifest : Manifest, ofJson? manifest.toJson = some manifest ∧
      ∀ arrangement, ofJson? (manifest.toJson.rearrange arrangement) = some manifest) ∧
    (∀ function : DecompiledFunction,
      (function.toJson.hasMember "move_next" = true ↔ function.moveNext ≠ none) ∧
      (function.toJson.hasMember "async_info" = true ↔ function.stepping ≠ none)) ∧
    (∀ node : SyntaxNode,
      (node.toJson.hasMember "function" = true ↔ node.function ≠ none) ∧
      (node.toJson.hasMember "children" = true ↔ node.children ≠ [])) ∧
    ∀ point : SequencePoint, point.toJson.hasMember "document" = true ↔ point.document ≠ 0 := by
  refine ⟨fun manifest => ⟨?_, manifest.readsBack⟩, fun function => ?_, fun node => ?_,
    fun point => ?_⟩
  · have hwritten := manifest.readsBack .asWritten
    rwa [rearrange_asWritten] at hwritten
  · obtain ⟨id, method, moveNext, isAsync, stepping, hoistedLocals⟩ := function
    cases moveNext <;> cases stepping <;> simp [DecompiledFunction.toJson, hasMember]
  · rw [node.toJson_eq, hasMember, hasMember, node.lookup_function, node.lookup_children]
    cases node.function <;> cases node.children <;> simp
  · by_cases hdocument : point.document = 0
    · simp [SequencePoint.toJson, hasMember, hdocument]
    · simp [SequencePoint.toJson, hasMember, hdocument]

/-- A manifest with its members sorted by name, by which the functions come in another order than by
number. -/
theorem read_back_byName :
    let manifest : Manifest :=
      { hidden := [⟨0x02000005⟩]
        files := [
          { types := [⟨0x02000002⟩]
            file :=
              { source := "class A"
                syntaxTrees := [⟨.queryJoin (some 2) none, none, [⟨.method, some 10, []⟩]⟩]
                functions := [{ id := 10, method := ⟨0x06000001⟩, stepping := some ⟨some 0, []⟩ }]
                points := .points (.ofList [(2, []), (10, [.hidden 0])]) } }] }
    ofJson? (manifest.toJson.rearrange .byName) = some manifest :=
  (read_back.1 _).2 .byName

end Manifest

end PortablePdb
