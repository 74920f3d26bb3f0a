import Mathlib.Data.List.Induction
import PortablePdb.Scopes.Collect

namespace PortablePdb

/-- A place in syntax trees: the number of a tree, then that of a node right below its root, and so
on down to a node. -/
abbrev Place := List Nat

/-- Whether a place comes before another one in the text. Whatever is inside a node comes after the
node and before its later neighbours, so that places are ordered like words. -/
def Place.Precedes (first second : Place) : Prop :=
  List.Lex (· < ·) first second

/-- Whether a place is inside the node at another one. -/
def Place.IsInside (inner outer : Place) : Prop :=
  ∃ rest, rest ≠ [] ∧ inner = outer ++ rest

/-- The node at a place inside a node. -/
def SyntaxNode.inside? (node : SyntaxNode) : Place → Option SyntaxNode
  | [] => some node
  | i :: place => node.children[i]?.bind (inside? · place)

@[simp] theorem SyntaxNode.inside?_nil (node : SyntaxNode) : node.inside? [] = some node := rfl

@[simp] theorem SyntaxNode.inside?_cons (node : SyntaxNode) (i : Nat) (place : Place) :
    node.inside? (i :: place) = node.children[i]?.bind (inside? · place) := rfl

/-- The node at a place of some trees. -/
def SyntaxNode.at? (trees : List SyntaxNode) : Place → Option SyntaxNode
  | [] => none
  | i :: place => trees[i]?.bind (inside? · place)

@[simp] theorem SyntaxNode.at?_cons (trees : List SyntaxNode) (i : Nat) (place : Place) :
    at? trees (i :: place) = trees[i]?.bind (inside? · place) := rfl

/-- Whether all children of a node with some role are visited, too. -/
def ScopeRole.opensChildren : ScopeRole → Bool
  | .imports _ | .clauses _ => false
  | .opensNamespace | .body | .plain => true

/-- A visit to a node. -/
structure Visit where
  place : Place
  /-- The place of the innermost namespace that was visited around the node, unless that is the file
  itself. -/
  space : Option Place
  /-- The number of visits that lead down to the node, with this one. -/
  depth : Nat
  node : SyntaxNode

namespace Visit

/-- The role of the node in the scopes of its file. -/
def role (visit : Visit) : ScopeRole :=
  visit.node.kind.scopeRole (visit.place.getLast? == some 0)

/-- The innermost namespace around what is inside the node. -/
def innerSpace (visit : Visit) : Option Place :=
  if visit.role = .opensNamespace then some visit.place else visit.space

/-- The visits to nodes that follow each other, from the one with a number on. -/
def ofNodes (outer : Place) (space : Option Place) (depth : Nat) :
    Nat → List SyntaxNode → List Visit
  | _, [] => []
  | i, node :: nodes =>
    ⟨outer ++ [i], space, depth, node⟩ :: ofNodes outer space depth (i + 1) nodes

/-- The visits inside nodes that are the bodies of functions. The nodes themselves are not visited.
-/
def ofClauses (outer : Place) (space : Option Place) (depth : Nat) :
    Nat → List (Option UInt32) → List SyntaxNode → List Visit
  | i, _ :: functions, body :: nodes =>
    ofNodes (outer ++ [i]) space depth 0 body.children ++
      ofClauses outer space depth (i + 1) functions nodes
  | _, _, _ => []

/-- The visits that come right below a visit. -/
def next (visit : Visit) : List Visit :=
  match visit.role with
  | .imports _ => []
  | .clauses functions =>
    ofClauses visit.place visit.innerSpace (visit.depth + 1) 0 functions visit.node.children
  | _ => ofNodes visit.place visit.innerSpace (visit.depth + 1) 0 visit.node.children

/-- The functions whose bodies are at a visit: that of the node itself, or those of its clauses as
far as there are nodes for them. -/
def functions (visit : Visit) : List (Option UInt32) :=
  match visit.role with
  | .body => [visit.node.function]
  | .clauses functions => functions.take visit.node.children.length
  | _ => []

/-- Whether a place inside the node of a visit is passed over: anything inside an import is, and so
are the bodies of the functions of clauses, as opposed to what is inside them, and the nodes behind
those bodies with all that is inside. -/
def Skips (visit : Visit) (place : Place) : Prop :=
  ∃ i rest, place = visit.place ++ i :: rest ∧
    ((∃ name, visit.role = .imports name) ∨
      ∃ functions, visit.role = .clauses functions ∧ (rest = [] ∨ functions.length ≤ i))

end Visit

/-- The visits of a walk through some trees. -/
inductive Visits (trees : List SyntaxNode) : Visit → Prop
  | tree {visit : Visit} (htree : visit ∈ Visit.ofNodes [] none 1 0 trees) : Visits trees visit
  | next {visit inner : Visit} (houter : Visits trees visit) (hinner : inner ∈ visit.next) :
    Visits trees inner

namespace Visit

variable {outer : Place} {space : Option Place} {depth first : Nat} {visit inner : Visit}
  {nodes : List SyntaxNode}

/-- Only the first of the nodes in a row may have the role of a first one. -/
theorem role_concat (i : Nat) (node : SyntaxNode) :
    role ⟨outer ++ [i], space, depth, node⟩ = node.kind.scopeRole (i == 0) := by
  simp [role]

@[simp] theorem ofNodes_nil : ofNodes outer space depth first [] = [] := rfl

@[simp] theorem ofNodes_cons (node : SyntaxNode) :
    ofNodes outer space depth first (node :: nodes) =
      ⟨outer ++ [first], space, depth, node⟩ :: ofNodes outer space depth (first + 1) nodes := rfl

theorem mem_ofNodes : visit ∈ ofNodes outer space depth first nodes ↔
    ∃ i node, nodes[i]? = some node ∧ visit = ⟨outer ++ [first + i], space, depth, node⟩ := by
  induction nodes generalizing first with
  | nil => simp
  | cons node nodes ih =>
    rw [ofNodes_cons, List.mem_cons, ih]
    constructor
    · rintro (rfl | ⟨i, other, hother, rfl⟩)
      · exact ⟨0, node, rfl, rfl⟩
      · exact ⟨i + 1, other, hother, by rw [Nat.add_right_comm, Nat.add_assoc]⟩
    · rintro ⟨i, other, hother, rfl⟩
      cases i with
      | zero =>
        cases hother
        exact .inl rfl
      | succ i => exact .inr ⟨i, other, hother, by rw [Nat.add_right_comm, Nat.add_assoc]⟩

@[simp] theorem ofClauses_nil : ofClauses outer space depth first [] nodes = [] := rfl

@[simp] theorem ofClauses_cons_nil (function : Option UInt32)
    (functions : List (Option UInt32)) :
    ofClauses outer space depth first (function :: functions) [] = [] := rfl

@[simp] theorem ofClauses_cons_cons (function : Option UInt32)
    (functions : List (Option UInt32)) (body : SyntaxNode) :
    ofClauses outer space depth first (function :: functions) (body :: nodes) =
      ofNodes (outer ++ [first]) space depth 0 body.children ++
        ofClauses outer space depth (first + 1) functions nodes := rfl

theorem mem_ofClauses {functions : List (Option UInt32)} :
    visit ∈ ofClauses outer space depth first functions nodes ↔
      ∃ i j body node, i < functions.length ∧ nodes[i]? = some body ∧
        body.children[j]? = some node ∧
        visit = ⟨outer ++ [first + i, j], space, depth, node⟩ := by
  induction functions generalizing first nodes with
  | nil => simp
  | cons function functions ih =>
    cases nodes with
    | nil => simp
    | cons body nodes =>
      rw [ofClauses_cons_cons, List.mem_append, mem_ofNodes, ih]
      constructor
      · rintro (⟨j, node, hnode, rfl⟩ | ⟨i, j, other, node, hi, hother, hnode, rfl⟩)
        · exact ⟨0, j, body, node, Nat.zero_lt_succ _, rfl, hnode, by simp⟩
        · refine ⟨i + 1, j, other, node, Nat.succ_lt_succ hi, hother, hnode, ?_⟩
          rw [Nat.add_right_comm, Nat.add_assoc]
      · rintro ⟨i, j, other, node, hi, hother, hnode, rfl⟩
        cases i with
        | zero =>
          cases hother
          exact .inl ⟨j, node, hnode, by simp⟩
        | succ i =>
          refine .inr ⟨i, j, other, node, Nat.lt_of_succ_lt_succ hi, hother, hnode, ?_⟩
          rw [Nat.add_right_comm, Nat.add_assoc]

/-- A visit leads on to a child of its node, or to a child of the body of a function of its clauses.
-/
theorem mem_next : inner ∈ visit.next ↔
    (visit.role.opensChildren = true ∧ ∃ i node, visit.node.children[i]? = some node ∧
      inner = ⟨visit.place ++ [i], visit.innerSpace, visit.depth + 1, node⟩) ∨
    ∃ functions i j body node, visit.role = .clauses functions ∧ i < functions.length ∧
      visit.node.children[i]? = some body ∧ body.children[j]? = some node ∧
      inner = ⟨visit.place ++ [i, j], visit.innerSpace, visit.depth + 1, node⟩ := by
  unfold next
  cases visit.role with
  | imports name => simp [ScopeRole.opensChildren]
  | clauses functions => simp [ScopeRole.opensChildren, mem_ofClauses]
  | _ => simp [ScopeRole.opensChildren, mem_ofNodes]

theorem isInside_of_mem_next (hinner : inner ∈ visit.next) :
    inner.space = visit.innerSpace ∧ inner.place.IsInside visit.place := by
  rcases mem_next.1 hinner with ⟨_, i, node, _, rfl⟩ | ⟨_, i, j, _, node, _, _, _, _, rfl⟩
  · exact ⟨rfl, [i], by simp, rfl⟩
  · exact ⟨rfl, [i, j], by simp, rfl⟩

end Visit

namespace SyntaxNode

theorem inside?_append (node : SyntaxNode) (place rest : Place) :
    node.inside? (place ++ rest) = (node.inside? place).bind (inside? · rest) := by
  induction place generalizing node with
  | nil => rfl
  | cons i place ih =>
    simp only [List.cons_append, inside?_cons]
    cases node.children[i]? with
    | none => rfl
    | some child => exact ih child

/-- What is further down is inside the node at the place from where it goes on. -/
theorem at?_append {trees : List SyntaxNode} {place : Place} (hplace : place ≠ []) (rest : Place) :
    at? trees (place ++ rest) = (at? trees place).bind (inside? · rest) := by
  cases place with
  | nil => exact absurd rfl hplace
  | cons i place =>
    simp only [List.cons_append, at?_cons]
    cases trees[i]? with
    | none => rfl
    | some tree => exact tree.inside?_append place rest

end SyntaxNode

namespace Visits

variable {trees : List SyntaxNode} {visit : Visit}

theorem place_ne_nil (hvisit : Visits trees visit) : visit.place ≠ [] := by
  cases hvisit with
  | tree htree =>
    obtain ⟨i, node, _, rfl⟩ := Visit.mem_ofNodes.1 htree
    simp
  | next _ hinner =>
    obtain ⟨_, rest, hrest, hplace⟩ := Visit.isInside_of_mem_next hinner
    simp [hplace, hrest]

/-- A visit to a tree or a child is to the node that is there. -/
theorem at?_place (hvisit : Visits trees visit) :
    SyntaxNode.at? trees visit.place = some visit.node := by
  induction hvisit with
  | tree htree =>
    obtain ⟨i, node, hnode, rfl⟩ := Visit.mem_ofNodes.1 htree
    simp [hnode]
  | @next visit _ houter hinner ih =>
    rcases Visit.mem_next.1 hinner with
      ⟨_, i, node, hnode, rfl⟩ | ⟨_, i, j, body, node, _, _, hbody, hnode, rfl⟩
    · simp [SyntaxNode.at?_append houter.place_ne_nil, ih, hnode]
    · simp [SyntaxNode.at?_append houter.place_ne_nil, ih, hbody, hnode]

/-- The nodes inside a visited one are below its children. -/
theorem exists_child_of_at? (hvisit : Visits trees visit) {i : Nat} {rest : Place}
    {inner : SyntaxNode} (hinner : SyntaxNode.at? trees (visit.place ++ i :: rest) = some inner) :
    ∃ child, visit.node.children[i]? = some child ∧ child.inside? rest = some inner := by
  rw [SyntaxNode.at?_append hvisit.place_ne_nil, hvisit.at?_place] at hinner
  exact Option.bind_eq_some_iff.mp hinner

/-- Each node of the trees is visited, or it is passed over at a visit further up. -/
theorem visited_or_skipped {place : Place} {node : SyntaxNode}
    (hnode : SyntaxNode.at? trees place = some node) :
    (∃ visit, Visits trees visit ∧ visit.place = place ∧ visit.node = node) ∨
      ∃ visit, Visits trees visit ∧ visit.Skips place := by
  induction place using List.reverseRecOn generalizing node with
  | nil => cases hnode
  | append_singleton place i ih =>
    by_cases hplace : place = []
    · subst hplace
      have htree : trees[i]? = some node := by
        simpa using hnode
      exact .inl ⟨_, .tree (Visit.mem_ofNodes.2 ⟨i, node, htree, rfl⟩), by simp, rfl⟩
    obtain ⟨parent, hparent, hchild⟩ : ∃ parent, SyntaxNode.at? trees place = some parent ∧
        parent.children[i]? = some node := by
      simpa [SyntaxNode.at?_append hplace, Option.bind_eq_some_iff] using hnode
    rcases ih hparent with ⟨visit, hvisit, rfl, rfl⟩ | ⟨visit, hvisit, k, rest, rfl, hskips⟩
    · cases hrole : visit.role with
      | imports name => exact .inr ⟨visit, hvisit, i, [], rfl, .inl ⟨name, hrole⟩⟩
      | clauses functions =>
        exact .inr ⟨visit, hvisit, i, [], rfl, .inr ⟨functions, hrole, .inl rfl⟩⟩
      | _ =>
        have hopens : visit.role.opensChildren = true := by
          rw [hrole]
          rfl
        have hinner := Visit.mem_next.2 (.inl ⟨hopens, i, node, hchild, rfl⟩)
        exact .inl ⟨_, hvisit.next hinner, rfl, rfl⟩
    · rw [List.append_assoc, List.cons_append]
      rcases hskips with hskips | ⟨functions, hrole, rfl | hlength⟩
      · exact .inr ⟨visit, hvisit, k, _, rfl, .inl hskips⟩
      · by_cases hlength : functions.length ≤ k
        · exact .inr ⟨visit, hvisit, k, _, rfl, .inr ⟨functions, hrole, .inr hlength⟩⟩
        · -- What is right inside the body of a function is visited again.
          obtain ⟨_, hbody, hsame⟩ := hvisit.exists_child_of_at? hparent
          cases hsame
          exact .inl ⟨_, hvisit.next (Visit.mem_next.2 (.inr ⟨functions, k, i, parent, node,
            hrole, Nat.lt_of_not_le hlength, hbody, hchild, rfl⟩)), rfl, rfl⟩
      · exact .inr ⟨visit, hvisit, k, _, rfl, .inr ⟨functions, hrole, .inr hlength⟩⟩

/-- A visit is at most as deep as its node is nested, and more than half as deep. -/
theorem depth_bounds (hvisit : Visits trees visit) :
    visit.depth ≤ visit.place.length ∧ visit.place.length < 2 * visit.depth := by
  induction hvisit with
  | tree htree =>
    obtain ⟨i, node, _, rfl⟩ := Visit.mem_ofNodes.1 htree
    simp
  | next _ hinner ih =>
    obtain ⟨hle, hlt⟩ := ih
    rcases Visit.mem_next.1 hinner with ⟨_, i, node, _, rfl⟩ | ⟨_, i, j, _, node, _, _, _, _, rfl⟩
    · simp only [List.length_append, List.length_singleton]
      omega
    · simp only [List.length_append, List.length_cons, List.length_nil]
      omega

/-- The innermost namespace around a visit was visited on the way down to it. -/
theorem exists_opening (hvisit : Visits trees visit) {space : Place}
    (hspace : visit.space = some space) :
    ∃ opening, Visits trees opening ∧ opening.role = .opensNamespace ∧ opening.place = space ∧
      visit.place.IsInside space := by
  induction hvisit with
  | tree htree =>
    obtain ⟨i, node, _, rfl⟩ := Visit.mem_ofNodes.1 htree
    cases hspace
  | @next visit inner houter hinner ih =>
    obtain ⟨hinnerSpace, further, hfurther, hplace⟩ := Visit.isInside_of_mem_next hinner
    rw [hinnerSpace, Visit.innerSpace] at hspace
    split at hspace
    · next hrole =>
      cases hspace
      exact ⟨visit, houter, hrole, rfl, further, hfurther, hplace⟩
    · obtain ⟨opening, hopening, hrole, hopened, rest, hrest, hbetween⟩ := ih hspace
      refine ⟨opening, hopening, hrole, hopened, rest ++ further, by simp [hrest], ?_⟩
      rw [hplace, hbetween, List.append_assoc]

variable {inner other : Visit}

/-- Visits at one place are to one node, which has one role. -/
theorem role_eq (hvisit : Visits trees visit) (hother : Visits trees other)
    (hplace : visit.place = other.place) : visit.role = other.role := by
  have hnode : some visit.node = some other.node := by
    rw [← hvisit.at?_place, ← hother.at?_place, hplace]
  simp only [Visit.role, hplace, Option.some.inj hnode]

/-- The bodies of the functions of clauses are not visited themselves. -/
theorem place_ne_body {functions : List (Option UInt32)} (hvisit : Visits trees visit)
    (hrole : visit.role = .clauses functions) (hother : Visits trees other) (i : Nat) :
    other.place ≠ visit.place ++ [i] := by
  intro hplace
  induction hlength : visit.place.length using Nat.strongRecOn
    generalizing visit other functions i with
  | _ length ih =>
    subst hlength
    cases hother with
    | tree htree =>
      obtain ⟨k, node, _, rfl⟩ := Visit.mem_ofNodes.1 htree
      obtain ⟨hnil, _⟩ := List.append_inj' hplace rfl
      exact hvisit.place_ne_nil hnil.symm
    | @next outer _ houter hinner =>
      rcases Visit.mem_next.1 hinner with
        ⟨hopens, k, node, _, rfl⟩ | ⟨others, k, l, body, node, hclauses, _, _, _, rfl⟩
      · obtain ⟨hsame, _⟩ := List.append_inj' hplace rfl
        rw [houter.role_eq hvisit hsame, hrole] at hopens
        cases hopens
      · -- The clause would be the body of a function itself, and further up.
        have hlast : (outer.place ++ [k]) ++ [l] = visit.place ++ [i] := by
          simpa using hplace
        obtain ⟨hbody, _⟩ := List.append_inj' hlast rfl
        refine ih outer.place.length ?_ houter hclauses hvisit k hbody.symm rfl
        rw [← hbody, List.length_append]
        exact Nat.lt_succ_self _

/-- A visit further up than a visit is also further up than the one before it, or it is the one
before it. -/
theorem exists_between {outer : Visit} (houter : Visits trees outer) (hinner : inner ∈ outer.next)
    (hother : Visits trees other) (hinside : inner.place.IsInside other.place) :
    ∃ between, outer.place = other.place ++ between := by
  obtain ⟨rest, hrest, hplace⟩ := hinside
  rcases Visit.mem_next.1 hinner with
    ⟨_, k, node, _, rfl⟩ | ⟨functions, k, l, body, node, hclauses, _, _, _, rfl⟩
  · rcases List.append_eq_append_iff.mp hplace with ⟨above, habove, hlast⟩ | ⟨between, hbetween, _⟩
    · cases above with
      | nil => exact ⟨[], by simpa using habove.symm⟩
      | cons i above => simp [hrest] at hlast
    · exact ⟨between, hbetween⟩
  · rcases List.append_eq_append_iff.mp hplace with ⟨above, habove, hlast⟩ | ⟨between, hbetween, _⟩
    · match above with
      | [] => exact ⟨[], by simpa using habove.symm⟩
      | [i] => exact absurd habove (houter.place_ne_body hclauses hother i)
      | i :: j :: above => simp [hrest] at hlast
    · exact ⟨between, hbetween⟩

/-- No visit is further up than a tree. -/
theorem not_isInside (hvisit : Visits trees visit)
    (htree : other ∈ Visit.ofNodes [] none 1 0 trees) : ¬ other.place.IsInside visit.place := by
  rintro ⟨rest, hrest, hplace⟩
  obtain ⟨i, node, _, rfl⟩ := Visit.mem_ofNodes.1 htree
  have hlength := congrArg List.length hplace
  have hpos := List.length_pos_iff.mpr hvisit.place_ne_nil
  have hposRest := List.length_pos_iff.mpr hrest
  simp only [List.nil_append, List.length_append, List.length_cons, List.length_nil] at hlength
  omega

/-- What is passed over is not visited. -/
theorem not_skips (hvisit : Visits trees visit) (hother : Visits trees other) :
    ¬ visit.Skips other.place := by
  induction hother with
  | tree htree =>
    rintro ⟨i, rest, hplace, _⟩
    exact hvisit.not_isInside htree ⟨i :: rest, List.cons_ne_nil i rest, hplace⟩
  | @next outer inner houter hinner ih =>
    rintro ⟨i, rest, hplace, hskips⟩
    obtain ⟨between, hbetween⟩ :=
      houter.exists_between hinner hvisit ⟨i :: rest, List.cons_ne_nil i rest, hplace⟩
    cases between with
    | nil =>
      have hsame : outer.place = visit.place := by
        simpa using hbetween
      rw [← houter.role_eq hvisit hsame] at hskips
      rcases Visit.mem_next.1 hinner with
        ⟨hopens, k, node, _, rfl⟩ | ⟨functions, k, l, body, node, hclauses, hlt, _, _, rfl⟩
      · rcases hskips with ⟨name, hrole⟩ | ⟨functions, hrole, _⟩
        · simp [hrole, ScopeRole.opensChildren] at hopens
        · simp [hrole, ScopeRole.opensChildren] at hopens
      · simp only [hsame, List.append_cancel_left_eq, List.cons.injEq] at hplace
        obtain ⟨rfl, rfl⟩ := hplace
        rcases hskips with ⟨name, hrole⟩ | ⟨others, hrole, hnil | hle⟩
        · simp [hclauses] at hrole
        · cases hnil
        · simp only [hclauses, ScopeRole.clauses.injEq] at hrole
          subst hrole
          omega
    | cons j between =>
      obtain ⟨_, more, hmore, hinnerPlace⟩ := Visit.isInside_of_mem_next hinner
      rw [hinnerPlace, hbetween, List.append_assoc, List.append_cancel_left_eq, List.cons_append,
        List.cons.injEq] at hplace
      obtain ⟨rfl, rfl⟩ := hplace
      refine ih ⟨j, between, hbetween, hskips.imp_right ?_⟩
      rintro ⟨functions, hrole, hnil | hle⟩
      · exact absurd (List.append_eq_nil_iff.mp hnil).2 hmore
      · exact ⟨functions, hrole, .inr hle⟩

/-- A node is visited just if it is not passed over. -/
theorem visited_iff {place : Place} {node : SyntaxNode}
    (hnode : SyntaxNode.at? trees place = some node) :
    (∃ visit, Visits trees visit ∧ visit.place = place ∧ visit.node = node) ↔
      ¬ ∃ visit, Visits trees visit ∧ visit.Skips place := by
  constructor
  · rintro ⟨visit, hvisit, rfl, _⟩ ⟨other, hother, hskips⟩
    exact hother.not_skips hvisit hskips
  · exact (visited_or_skipped hnode).resolve_right

/-- The innermost namespace around a visit is inside all others that were visited around it. -/
theorem exists_space (hvisit : Visits trees visit) (hother : Visits trees other)
    (hrole : other.role = .opensNamespace) (hinside : visit.place.IsInside other.place) :
    ∃ space, visit.space = some space ∧ other.place <+: space := by
  induction hvisit with
  | tree htree => exact absurd hinside (hother.not_isInside htree)
  | @next outer inner houter hinner ih =>
    obtain ⟨between, hbetween⟩ := houter.exists_between hinner hother hinside
    rw [(Visit.isInside_of_mem_next hinner).1, Visit.innerSpace]
    split
    · exact ⟨outer.place, rfl, between, hbetween.symm⟩
    · next hplain =>
      refine ih ⟨between, ?_, hbetween⟩
      rintro rfl
      rw [List.append_nil] at hbetween
      exact hplain ((houter.role_eq hother hbetween).trans hrole)

/-- Whether a namespace is the innermost one that was visited around a place, if there is any. -/
def IsInnermost (trees : List SyntaxNode) (place : Place) (space : Option Place) : Prop :=
  (∀ inner, space = some inner → place.IsInside inner ∧
    ∃ visit, Visits trees visit ∧ visit.role = .opensNamespace ∧ visit.place = inner) ∧
  ∀ visit, Visits trees visit → visit.role = .opensNamespace → place.IsInside visit.place →
    ∃ inner, space = some inner ∧ visit.place <+: inner

theorem isInnermost (hvisit : Visits trees visit) : IsInnermost trees visit.place visit.space := by
  refine ⟨?_, fun other hother hrole hinside => hvisit.exists_space hother hrole hinside⟩
  intro inner hinner
  obtain ⟨opening, hopening, hrole, hplace, hinside⟩ := hvisit.exists_opening hinner
  exact ⟨hinside, opening, hopening, hrole, hplace⟩

end Visits

namespace Visit

variable {visit inner : Visit}

/-- What is visited right below a node is part of the node. -/
theorem sizeOf_next (hinner : inner ∈ visit.next) : sizeOf inner.node < sizeOf visit.node := by
  have hchild {node child : SyntaxNode} (hmem : child ∈ node.children) :
      sizeOf child < sizeOf node := by
    have hlt := List.sizeOf_lt_of_mem hmem
    cases node
    simp only [SyntaxNode.mk.sizeOf_spec]
    simp only at hlt
    omega
  rcases mem_next.1 hinner with
    ⟨_, i, node, hnode, rfl⟩ | ⟨_, i, j, body, node, _, _, hbody, hnode, rfl⟩
  · exact hchild (List.mem_of_getElem? hnode)
  · exact Nat.lt_trans (hchild (List.mem_of_getElem? hnode)) (hchild (List.mem_of_getElem? hbody))

/-- What holds of each visit as soon as it holds of those right below it holds of all visits. -/
@[elab_as_elim]
theorem next_induction {motive : Visit → Prop}
    (step : ∀ visit, (∀ inner ∈ visit.next, motive inner) → motive visit) (visit : Visit) :
    motive visit :=
  step visit fun inner _ => next_induction step inner
termination_by sizeOf visit.node
decreasing_by exact sizeOf_next ‹_›

/-- A visit and all those below it, in the order of the text. -/
def walk (visit : Visit) : List Visit :=
  visit :: visit.next.attach.flatMap fun ⟨inner, _⟩ => walk inner
termination_by sizeOf visit.node
decreasing_by exact sizeOf_next ‹_›

theorem walk_eq (visit : Visit) : visit.walk = visit :: visit.next.flatMap walk := by
  rw [walk]
  simp

theorem self_mem_walk (visit : Visit) : visit ∈ visit.walk := by
  rw [walk_eq]
  exact List.mem_cons_self

/-- What is right below one of the visits is among them. -/
theorem mem_walk_of_mem_next {first : Visit} (hvisit : visit ∈ first.walk)
    (hinner : inner ∈ visit.next) : inner ∈ first.walk := by
  induction first using next_induction with
  | step first ih =>
    rw [walk_eq] at hvisit ⊢
    refine List.mem_cons_of_mem _ (List.mem_flatMap.mpr ?_)
    rcases List.mem_cons.mp hvisit with rfl | hbelow
    · exact ⟨inner, hinner, self_mem_walk inner⟩
    · obtain ⟨further, hfurther, hbelow⟩ := List.mem_flatMap.mp hbelow
      exact ⟨further, hfurther, ih further hfurther hbelow⟩

/-- All visits from one on are inside its node. -/
theorem exists_place_of_mem_walk (hinner : inner ∈ visit.walk) :
    ∃ rest, inner.place = visit.place ++ rest := by
  induction visit using next_induction with
  | step visit ih =>
    rw [walk_eq] at hinner
    rcases List.mem_cons.mp hinner with rfl | hbelow
    · exact ⟨[], (List.append_nil _).symm⟩
    · obtain ⟨further, hfurther, hbelow⟩ := List.mem_flatMap.mp hbelow
      obtain ⟨_, between, _, hplace⟩ := isInside_of_mem_next hfurther
      obtain ⟨rest, hrest⟩ := ih further hfurther hbelow
      exact ⟨between ++ rest, by rw [hrest, hplace, List.append_assoc]⟩

end Visit

theorem Visits.of_mem_walk {trees : List SyntaxNode} {visit inner : Visit}
    (hvisit : Visits trees visit) (hinner : inner ∈ visit.walk) : Visits trees inner := by
  induction visit using Visit.next_induction with
  | step visit ih =>
    rw [Visit.walk_eq] at hinner
    rcases List.mem_cons.mp hinner with rfl | hbelow
    · exact hvisit
    · obtain ⟨further, hfurther, hbelow⟩ := List.mem_flatMap.mp hbelow
      exact ih further hfurther (hvisit.next hfurther) hbelow

/-- All visits of a walk through some trees, in the order of the text. -/
def visitsOf (trees : List SyntaxNode) : List Visit :=
  (Visit.ofNodes [] none 1 0 trees).flatMap Visit.walk

theorem mem_visitsOf {trees : List SyntaxNode} {visit : Visit} :
    visit ∈ visitsOf trees ↔ Visits trees visit := by
  constructor
  · intro hvisit
    obtain ⟨tree, htree, hvisit⟩ := List.mem_flatMap.mp hvisit
    exact (Visits.tree htree).of_mem_walk hvisit
  · intro hvisit
    induction hvisit with
    | tree htree => exact List.mem_flatMap.mpr ⟨_, htree, Visit.self_mem_walk _⟩
    | next _ hinner ih =>
      obtain ⟨tree, htree, hvisit⟩ := List.mem_flatMap.mp ih
      exact List.mem_flatMap.mpr ⟨tree, htree, Visit.mem_walk_of_mem_next hvisit hinner⟩

namespace Place

theorem Precedes.append_left {first second : Place} (hprecedes : first.Precedes second)
    (outer : Place) : Precedes (outer ++ first) (outer ++ second) := by
  induction outer with
  | nil => exact hprecedes
  | cons i outer ih => exact .cons ih

/-- A node comes before what is inside it. -/
theorem precedes_append (place : Place) {rest : Place} (hrest : rest ≠ []) :
    place.Precedes (place ++ rest) := by
  have hnil : Precedes [] rest := by
    cases rest with
    | nil => exact absurd rfl hrest
    | cons i rest => exact .nil
  simpa using hnil.append_left place

theorem precedes_irrefl (place : Place) : ¬ place.Precedes place := by
  induction place with
  | nil => nofun
  | cons i place ih =>
    intro hprecedes
    cases hprecedes with
    | cons hprecedes => exact ih hprecedes
    | rel hlt => exact Nat.lt_irrefl i hlt

end Place

namespace Visit

variable {outer : Place} {space : Option Place} {depth first : Nat}

/-- Whether all that is inside the node of one visit comes before what is inside that of another. -/
def Precedes (first second : Visit) : Prop :=
  ∀ rest others, Place.Precedes (first.place ++ rest) (second.place ++ others)

theorem pairwise_ofNodes (nodes : List SyntaxNode) :
    (ofNodes outer space depth first nodes).Pairwise Precedes := by
  induction nodes generalizing first with
  | nil => exact .nil
  | cons node nodes ih =>
    refine List.pairwise_cons.mpr ⟨?_, ih⟩
    intro visit hvisit rest others
    obtain ⟨i, other, _, rfl⟩ := mem_ofNodes.1 hvisit
    simp only [List.append_assoc, List.singleton_append]
    exact Place.Precedes.append_left (.rel (by omega)) outer

theorem pairwise_ofClauses (functions : List (Option UInt32)) (nodes : List SyntaxNode) :
    (ofClauses outer space depth first functions nodes).Pairwise Precedes := by
  induction functions generalizing first nodes with
  | nil => simp
  | cons function functions ih =>
    cases nodes with
    | nil => simp
    | cons body nodes =>
      rw [ofClauses_cons_cons]
      refine List.pairwise_append.mpr ⟨pairwise_ofNodes _, ih _, ?_⟩
      intro visit hvisit later hlater rest others
      obtain ⟨j, node, _, rfl⟩ := mem_ofNodes.1 hvisit
      obtain ⟨i, k, _, other, _, _, _, rfl⟩ := mem_ofClauses.1 hlater
      simp only [List.append_assoc, List.cons_append, List.nil_append]
      exact Place.Precedes.append_left (.rel (by omega)) outer

theorem pairwise_next (visit : Visit) : visit.next.Pairwise Precedes := by
  unfold next
  split
  · exact .nil
  · exact pairwise_ofClauses _ _
  · exact pairwise_ofNodes _

/-- Walks from visits that follow each other in the text follow each other, too. -/
theorem pairwise_flatMap_walk {visits : List Visit} (hvisits : visits.Pairwise Precedes)
    (hwalks : ∀ visit ∈ visits,
      visit.walk.Pairwise fun first second => first.place.Precedes second.place) :
    (visits.flatMap walk).Pairwise fun first second => first.place.Precedes second.place := by
  refine List.pairwise_flatMap.mpr ⟨hwalks, hvisits.imp ?_⟩
  intro visit later hprecedes inner hinner other hother
  obtain ⟨rest, hrest⟩ := exists_place_of_mem_walk hinner
  obtain ⟨others, hothers⟩ := exists_place_of_mem_walk hother
  rw [hrest, hothers]
  exact hprecedes rest others

theorem pairwise_walk (visit : Visit) :
    visit.walk.Pairwise fun first second => first.place.Precedes second.place := by
  induction visit using next_induction with
  | step visit ih =>
    rw [walk_eq]
    refine List.pairwise_cons.mpr ⟨?_, pairwise_flatMap_walk visit.pairwise_next ih⟩
    intro inner hinner
    obtain ⟨further, hfurther, hinner⟩ := List.mem_flatMap.mp hinner
    obtain ⟨_, between, hbetween, hplace⟩ := isInside_of_mem_next hfurther
    obtain ⟨rest, hrest⟩ := exists_place_of_mem_walk hinner
    rw [hrest, hplace, List.append_assoc]
    exact Place.precedes_append _ (by simp [hbetween])

end Visit

/-- The visits of a walk are in the order of their places. -/
theorem pairwise_visitsOf (trees : List SyntaxNode) :
    (visitsOf trees).Pairwise fun first second => first.place.Precedes second.place :=
  Visit.pairwise_flatMap_walk (Visit.pairwise_ofNodes trees) fun visit _ => visit.pairwise_walk

end PortablePdb
