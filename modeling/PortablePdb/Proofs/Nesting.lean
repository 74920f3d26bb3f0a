import PortablePdb.Proofs.Reading
import PortablePdb.Proofs.Visits

namespace PortablePdb

namespace FileScopes

/-- How a walk ends: it gets through unless one of its visits is too deep. -/
def Ends (visits : List Visit) (result : Except Error FileScopes) : Prop :=
  ((∃ after, result = .ok after) ∧ ∀ visit ∈ visits, visit.depth ≤ maxDepth) ∨
    (result = .error (.nesting maxDepth) ∧ ∃ visit ∈ visits, maxDepth < visit.depth)

namespace Ends

variable {first second : List Visit} {result : Except Error FileScopes} {visit : Visit}

theorem of_ok (scopes : FileScopes) : Ends [] (.ok scopes) :=
  .inl ⟨⟨scopes, rfl⟩, nofun⟩

/-- A walk that goes on where another one ends. -/
theorem bind {rest : FileScopes → Except Error FileScopes} (hfirst : Ends first result)
    (hrest : ∀ scopes, Ends second (rest scopes)) : Ends (first ++ second) (result >>= rest) := by
  rcases hfirst with ⟨⟨scopes, rfl⟩, hfirst⟩ | ⟨rfl, visit, hvisit, hdepth⟩
  · rw [ok_bind]
    rcases hrest scopes with ⟨hafter, hsecond⟩ | ⟨herror, visit, hvisit, hdepth⟩
    · exact .inl ⟨hafter, List.forall_mem_append.mpr ⟨hfirst, hsecond⟩⟩
    · exact .inr ⟨herror, visit, List.mem_append_right first hvisit, hdepth⟩
  · exact .inr ⟨rfl, visit, List.mem_append_left second hvisit, hdepth⟩

theorem map (hresult : Ends first result) (action : FileScopes → FileScopes) :
    Ends first (result >>= fun scopes => pure (action scopes)) := by
  have hmapped := hresult.bind fun scopes => of_ok (action scopes)
  rwa [List.append_nil] at hmapped

theorem cons (hresult : Ends first result) (hdepth : visit.depth ≤ maxDepth) :
    Ends (visit :: first) result := by
  rcases hresult with ⟨hafter, hfirst⟩ | ⟨herror, other, hother, hdeep⟩
  · exact .inl ⟨hafter, List.forall_mem_cons.mpr ⟨hdepth, hfirst⟩⟩
  · exact .inr ⟨herror, other, List.mem_cons_of_mem visit hother, hdeep⟩

end Ends

variable {file : DecompiledFile} {module : Module}

mutual

theorem ends_visit {outer : Place} {space : Option Place} {depth slot i : Nat} (node : SyntaxNode)
    (scopes : FileScopes) :
    Ends (Visit.walk ⟨outer ++ [i], space, depth + 1, node⟩)
      (visit file module depth slot (i == 0) node scopes) := by
  obtain ⟨kind, function, children⟩ := node
  rw [Visit.walk_eq]
  unfold visit
  split
  · next hdeep => exact .inr ⟨rfl, _, List.mem_cons_self, Nat.lt_succ_of_le hdeep⟩
  · next hdepth =>
    refine Ends.cons ?_ (Nat.lt_of_not_le hdepth)
    rw [Visit.next, Visit.role_concat]
    cases kind.scopeRole (i == 0) with
    | opensNamespace => exact ends_visitAll children _
    | imports name => exact .of_ok _
    | body => exact (ends_visitAll children scopes).map _
    | clauses functions => exact ends_visitClauses functions children scopes
    | plain => exact ends_visitAll children scopes

theorem ends_visitAll {outer : Place} {space : Option Place} {depth slot i : Nat}
    (nodes : List SyntaxNode) (scopes : FileScopes) :
    Ends ((Visit.ofNodes outer space (depth + 1) i nodes).flatMap Visit.walk)
      (visitAll file module depth slot (i == 0) nodes scopes) := by
  cases nodes with
  | nil => exact .of_ok scopes
  | cons node nodes =>
    rw [Visit.ofNodes_cons, List.flatMap_cons, visitAll]
    exact (ends_visit node scopes).bind fun middle => ends_visitAll (i := i + 1) nodes middle

theorem ends_visitClauses {outer : Place} {space : Option Place} {depth slot i : Nat}
    (functions : List (Option UInt32)) (nodes : List SyntaxNode) (scopes : FileScopes) :
    Ends ((Visit.ofClauses outer space (depth + 1) i functions nodes).flatMap Visit.walk)
      (visitClauses file module depth slot functions nodes scopes) := by
  cases functions with
  | nil =>
    rw [visitClauses]
    · exact .of_ok scopes
    · nofun
  | cons function functions =>
    cases nodes with
    | nil =>
      rw [visitClauses]
      · exact .of_ok scopes
      · nofun
    | cons body nodes =>
      obtain ⟨kind, own, children⟩ := body
      rw [visitClauses, Visit.ofClauses_cons_cons, List.flatMap_append]
      exact (ends_visitAll children scopes).bind fun middle =>
        ends_visitClauses functions nodes _

end

/-- The walk through a file ends as its visits have it. -/
theorem ends_ofFile (file : DecompiledFile) (module : Module) :
    Ends (visitsOf file.syntaxTrees) (ofFile file module) :=
  ends_visitAll (i := 0) file.syntaxTrees {}

/-- A walk fails just if one of its visits is too deep. -/
theorem ofFile_eq_error_iff :
    ofFile file module = .error (.nesting maxDepth) ↔
      ∃ visit, Visits file.syntaxTrees visit ∧ maxDepth < visit.depth := by
  rcases ends_ofFile file module with ⟨⟨scopes, hscopes⟩, hvisits⟩ | ⟨herror, visit, hvisit, hdeep⟩
  · rw [hscopes]
    refine ⟨nofun, ?_⟩
    rintro ⟨visit, hvisit, hdeep⟩
    exact absurd (hvisits visit (mem_visitsOf.mpr hvisit)) (Nat.not_le_of_lt hdeep)
  · exact ⟨fun _ => ⟨visit, mem_visitsOf.mp hvisit, hdeep⟩, fun _ => herror⟩

/-- A walk gets through just if none of its visits is too deep. -/
theorem exists_ofFile_iff :
    (∃ scopes, ofFile file module = .ok scopes) ↔
      ∀ visit, Visits file.syntaxTrees visit → visit.depth ≤ maxDepth := by
  rcases ends_ofFile file module with ⟨hscopes, hvisits⟩ | ⟨herror, visit, hvisit, hdeep⟩
  · exact ⟨fun _ visit hvisit => hvisits visit (mem_visitsOf.mpr hvisit), fun _ => hscopes⟩
  · rw [herror]
    refine ⟨nofun, fun hvisits => ?_⟩
    exact absurd (hvisits visit (mem_visitsOf.mp hvisit)) (Nat.not_le_of_lt hdeep)

end FileScopes

/-- No import has anything inside it, and no clause with anything inside it has functions. -/
def SyntaxNode.AllOpen (trees : List SyntaxNode) : Prop :=
  ∀ place node, at? trees place = some node → node.children ≠ [] →
    ∀ isFirst, (node.kind.scopeRole isFirst).opensChildren = true

namespace Visits

variable {trees : List SyntaxNode} {visit : Visit}

/-- Where no clause has functions, visits are as deep as nodes are nested. -/
theorem depth_eq (hvisit : Visits trees visit) (hopen : SyntaxNode.AllOpen trees) :
    visit.depth = visit.place.length := by
  induction hvisit with
  | tree htree =>
    obtain ⟨i, node, _, rfl⟩ := Visit.mem_ofNodes.mp htree
    rfl
  | @next visit _ houter hinner ih =>
    rcases Visit.mem_next.mp hinner with
      ⟨_, i, node, _, rfl⟩ | ⟨functions, i, _, body, _, hrole, _, hbody, _, rfl⟩
    · simp [ih]
    · have hopens := hopen _ _ houter.at?_place (List.ne_nil_of_mem (List.mem_of_getElem? hbody))
        (visit.place.getLast? == some 0)
      change visit.role.opensChildren = true at hopens
      rw [hrole] at hopens
      cases hopens

/-- Where no import has anything inside it and no clause has functions, all nodes are visited. -/
theorem of_at? (hopen : SyntaxNode.AllOpen trees) {place : Place} {node : SyntaxNode}
    (hnode : SyntaxNode.at? trees place = some node) :
    ∃ visit, Visits trees visit ∧ visit.place = place := by
  rcases visited_or_skipped hnode with
    ⟨visit, hvisit, hplace, _⟩ | ⟨visit, hvisit, i, rest, rfl, hskips⟩
  · exact ⟨visit, hvisit, hplace⟩
  · obtain ⟨child, hchild, _⟩ := hvisit.exists_child_of_at? hnode
    have hopens := hopen _ _ hvisit.at?_place (List.ne_nil_of_mem (List.mem_of_getElem? hchild))
      (visit.place.getLast? == some 0)
    change visit.role.opensChildren = true at hopens
    rcases hskips with ⟨name, hrole⟩ | ⟨functions, hrole, _⟩
    · rw [hrole] at hopens
      cases hopens
    · rw [hrole] at hopens
      cases hopens

end Visits

namespace FileScopes

/-- The nesting of a file is too deep just if one of its visits is deeper than the limit; otherwise
the walk gets through. A visit is as deep as its node is nested, but without the bodies of the
functions of clauses that are around the node, so that the limit is on the nesting of nodes if no
clause has functions. -/
theorem ofFile_nesting (file : DecompiledFile) (module : Module) :
    (ofFile file module = .error (.nesting maxDepth) ↔
      ∃ visit, Visits file.syntaxTrees visit ∧ maxDepth < visit.depth) ∧
    ((∃ scopes, ofFile file module = .ok scopes) ↔
      ∀ visit, Visits file.syntaxTrees visit → visit.depth ≤ maxDepth) ∧
    (∀ visit, Visits file.syntaxTrees visit →
      SyntaxNode.at? file.syntaxTrees visit.place = some visit.node ∧
      visit.depth ≤ visit.place.length ∧ visit.place.length < 2 * visit.depth) ∧
    (SyntaxNode.AllOpen file.syntaxTrees →
      (ofFile file module = .error (.nesting maxDepth) ↔ ∃ place node,
        SyntaxNode.at? file.syntaxTrees place = some node ∧ maxDepth < place.length)) := by
  refine ⟨ofFile_eq_error_iff, exists_ofFile_iff, ?_, ?_⟩
  · exact fun visit hvisit => ⟨hvisit.at?_place, hvisit.depth_bounds⟩
  · intro hopen
    rw [ofFile_eq_error_iff]
    constructor
    · rintro ⟨visit, hvisit, hdeep⟩
      exact ⟨visit.place, visit.node, hvisit.at?_place, hvisit.depth_eq hopen ▸ hdeep⟩
    · rintro ⟨place, node, hnode, hdeep⟩
      obtain ⟨visit, hvisit, rfl⟩ := Visits.of_at? hopen hnode
      exact ⟨visit, hvisit, (hvisit.depth_eq hopen).symm ▸ hdeep⟩

/-- A chain of nodes, each of them inside the one before, below a clause with a function. -/
def deepClause : DecompiledFile where
  syntaxTrees := [⟨.queryGroup (some 1) none, none, [chain 511]⟩]
where
  /-- A node with as many others below it. -/
  chain : Nat → SyntaxNode
    | 0 => ⟨.other, none, []⟩
    | count + 1 => ⟨.other, none, [chain count]⟩

/-- A module without methods. -/
def emptyModule : Module where
  name := "App.dll"
  methods := #[]
  types := #[]
  rowCounts := RowCounts.none
  entryPoint := ⟨0⟩
  debugEntries := []
  codeView := none

/-- A node that is nested deeper than the limit does not make the walk fail if one of the nodes
around it is the body of the function of a clause. -/
theorem ofFile_deepClause :
    ofFile deepClause emptyModule = .ok {} ∧
      ∃ place node, SyntaxNode.at? deepClause.syntaxTrees place = some node ∧
        maxDepth < place.length := by
  have hnode : (SyntaxNode.at? deepClause.syntaxTrees (.replicate 513 0)).isSome = true := by
    decide +kernel
  obtain ⟨node, hnode⟩ := Option.isSome_iff_exists.mp hnode
  refine ⟨?_, .replicate 513 0, node, hnode, ?_⟩
  · decide +kernel
  · rw [List.length_replicate]
    decide

end FileScopes

end PortablePdb
