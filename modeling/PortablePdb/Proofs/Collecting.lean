import PortablePdb.Proofs.ImportChains
import PortablePdb.Proofs.Visits

namespace PortablePdb

/-- The scope of a method within a namespace, if the method has code. -/
def Module.methodScope? (module : Module) (slot : Nat) (method : Token) : Option MethodScope :=
  ((module.method? method).bind (·.code)).map fun code => ⟨method, slot, code.size⟩

namespace DecompiledFile

/-- The function of a file that an id stands for, if it is a method of the module. -/
def compiled? (file : DecompiledFile) (function : Option UInt32) : Option DecompiledFunction :=
  (function.bind file.function?).filter (·.method.isTable .methodDef)

/-- The scopes of the methods of a function, as far as they have code. -/
def methodScopes (file : DecompiledFile) (module : Module) (slot : Nat)
    (function : Option UInt32) : List MethodScope :=
  match file.compiled? function with
  | some entry => (entry.method :: entry.moveNext.toList).filterMap (module.methodScope? slot)
  | none => []

variable {file : DecompiledFile} {function : Option UInt32}

theorem compiled?_eq_some {entry : DecompiledFunction} :
    file.compiled? function = some entry ↔ ∃ id, function = some id ∧
      file.function? id = some entry ∧ entry.method.isTable .methodDef = true := by
  simp only [compiled?, Option.filter_eq_some_iff, Option.bind_eq_some_iff]
  constructor
  · rintro ⟨⟨id, hid, hentry⟩, hmethod⟩
    exact ⟨id, hid, hentry, hmethod⟩
  · rintro ⟨id, hid, hentry, hmethod⟩
    exact ⟨⟨id, hid, hentry⟩, hmethod⟩

/-- A function is found under its own id. -/
theorem eq_id_of_compiled? {entry : DecompiledFunction}
    (hentry : file.compiled? function = some entry) : function = some entry.id := by
  obtain ⟨id, rfl, hfound, _⟩ := compiled?_eq_some.mp hentry
  unfold function? at hfound
  have hsame := List.find?_some hfound
  exact congrArg some (eq_of_beq hsame).symm

theorem mem_methodScopes {module : Module} {slot : Nat} {scope : MethodScope} :
    scope ∈ file.methodScopes module slot function ↔
      ∃ entry method code, file.compiled? function = some entry ∧
        method ∈ entry.method :: entry.moveNext.toList ∧
        (module.method? method).bind (·.code) = some code ∧ scope = ⟨method, slot, code.size⟩ := by
  unfold methodScopes
  cases file.compiled? function with
  | none => simp
  | some entry =>
    simp only [List.mem_filterMap, Module.methodScope?, Option.map_eq_some_iff]
    constructor
    · rintro ⟨method, hmethod, code, hcode, rfl⟩
      exact ⟨entry, method, code, rfl, hmethod, hcode, rfl⟩
    · rintro ⟨_, method, code, hsame, hmethod, hcode, rfl⟩
      cases hsame
      exact ⟨method, hmethod, code, hcode, rfl⟩

end DecompiledFile

namespace FileScopes

variable {file : DecompiledFile} {module : Module} {scopes : FileScopes} {slot : Nat}

theorem addMethods_eq (methods : List Token) :
    methods.foldl (addMethod module slot) scopes = { scopes with
      methods := scopes.methods ++ (methods.filterMap (module.methodScope? slot)).toArray } := by
  induction methods generalizing scopes with
  | nil => simp
  | cons method methods ih =>
    rw [List.foldl_cons, ih, addMethod, List.filterMap_cons, Module.methodScope?]
    cases (module.method? method).bind (·.code) with
    | none => rfl
    | some code => simp

/-- A function that is a method is listed with the scopes of its methods. -/
theorem addFunction_eq (function : Option UInt32) :
    scopes.addFunction file module slot function = { scopes with
      methods := scopes.methods ++ (file.methodScopes module slot function).toArray
      functions := scopes.functions ++ ((file.compiled? function).map (·.id)).toList.toArray } := by
  unfold addFunction DecompiledFile.methodScopes DecompiledFile.compiled?
  cases function.bind file.function? with
  | none => simp
  | some entry =>
    simp only [addMethods_eq, Option.filter_some]
    by_cases hmethod : entry.method.isTable .methodDef = true
    · simp [hmethod]
    · simp [hmethod]

end FileScopes

namespace Visit

theorem next_of_opens {visit : Visit} (hrole : visit.role = .opensNamespace) :
    visit.next =
      ofNodes visit.place (some visit.place) (visit.depth + 1) 0 visit.node.children := by
  simp [next, innerSpace, hrole]

theorem next_of_plain {visit : Visit} (hrole : visit.role = .plain ∨ visit.role = .body) :
    visit.next = ofNodes visit.place visit.space (visit.depth + 1) 0 visit.node.children := by
  rcases hrole with hrole | hrole
  · simp [next, innerSpace, hrole]
  · simp [next, innerSpace, hrole]

theorem next_of_imports {visit : Visit} {name : String} (hrole : visit.role = .imports name) :
    visit.next = [] := by
  simp [next, hrole]

theorem next_of_clauses {visit : Visit} {functions : List (Option UInt32)}
    (hrole : visit.role = .clauses functions) :
    visit.next = ofClauses visit.place visit.space (visit.depth + 1) 0 functions
      visit.node.children := by
  simp [next, innerSpace, hrole]

/-- The bodies of functions at some visits, each with the innermost namespace around it. -/
def bodies (visits : List Visit) : List (Option Place × Option UInt32) :=
  visits.flatMap fun visit => visit.functions.map (visit.space, ·)

/-- The namespaces that some visits open, in the same order. -/
def openings (visits : List Visit) : List Place :=
  (visits.filter (·.role = .opensNamespace)).map (·.place)

/-- The slots of scopes after some visits: that of the file itself, and one for each namespace. -/
def slots (visits : List Visit) : List (Option Place) :=
  none :: (openings visits).map some

variable {visits more : List Visit} {visit : Visit} {space : Place}

theorem bodies_append : bodies (visits ++ more) = bodies visits ++ bodies more :=
  List.flatMap_append

theorem bodies_cons :
    bodies (visit :: visits) = visit.functions.map (visit.space, ·) ++ bodies visits :=
  List.flatMap_cons

theorem mem_bodies {body : Option Place × Option UInt32} : body ∈ bodies visits ↔
    ∃ visit ∈ visits, body.1 = visit.space ∧ body.2 ∈ visit.functions := by
  obtain ⟨space, function⟩ := body
  simp only [bodies, List.mem_flatMap, List.mem_map, Prod.mk.injEq]
  constructor
  · rintro ⟨visit, hvisit, other, hother, rfl, rfl⟩
    exact ⟨visit, hvisit, rfl, hother⟩
  · rintro ⟨visit, hvisit, rfl, hfunction⟩
    exact ⟨visit, hvisit, function, hfunction, rfl, rfl⟩

theorem mem_openings : space ∈ openings visits ↔
    ∃ visit ∈ visits, visit.role = .opensNamespace ∧ visit.place = space := by
  simp [openings, and_assoc]

theorem slots_append : slots (visits ++ more) = slots visits ++ (openings more).map some := by
  simp [slots, openings]

/-- The slots of earlier visits come first. -/
theorem slots_grow : slots visits <+: slots (visits ++ more) := by
  rw [slots_append]
  exact List.prefix_append _ _

theorem getElem?_slots {slot : Nat} {space : Option Place}
    (hslot : (slots visits)[slot]? = some space) :
    (slots (visits ++ more))[slot]? = some space := by
  rw [slots_append, List.getElem?_append_left (List.getElem?_eq_some_iff.mp hslot).1, hslot]

/-- A slot that was opened early on is where the namespace is among all of them. -/
theorem idxOf_slot {all : List (Option Place)} {slot : Nat} {space : Option Place}
    (hall : slots visits <+: all) (hnodup : all.Nodup)
    (hslot : (slots visits)[slot]? = some space) : all.idxOf space = slot := by
  obtain ⟨rest, rfl⟩ := hall
  obtain ⟨hlt, rfl⟩ := List.getElem?_eq_some_iff.mp hslot
  have hwhole := hnodup.idxOf_getElem slot (by rw [List.length_append]; omega)
  rwa [List.getElem_append_left hlt] at hwhole

theorem slots_concat_of_opens (hrole : visit.role = .opensNamespace) :
    slots (visits ++ [visit]) = slots visits ++ [some visit.place] := by
  simp [slots_append, openings, hrole]

/-- A namespace whose slot comes once was not opened before. -/
theorem notMem_slots_of_nodup (hrole : visit.role = .opensNamespace)
    (hnodup : (slots (visits ++ [visit])).Nodup) : some visit.place ∉ slots visits := by
  rw [slots_concat_of_opens hrole, List.nodup_append] at hnodup
  intro hmem
  exact hnodup.2.2 _ hmem _ List.mem_cons_self rfl

theorem slots_concat_of_not_opens (hrole : visit.role ≠ .opensNamespace) :
    slots (visits ++ [visit]) = slots visits := by
  simp [slots_append, openings, hrole]

end Visit

namespace FileScopes

open Visit

/-- The scopes of a file are those of the slots that some visits open: each has the imports that
were visited right within its namespace, and its parent is the slot of the namespace around it. -/
structure Opens (visits : List Visit) (scopes : FileScopes) : Prop where
  size_eq : scopes.namespaces.size = (slots visits).length
  around : ∀ visit ∈ visits, visit.space ∈ slots visits
  imports : ∀ (slot : Nat) space (scope : NamespaceScope), (slots visits)[slot]? = some space →
    scopes.namespaces[slot]? = some scope → ∀ name, name ∈ scope.imports.toList ↔
      ∃ visit ∈ visits, visit.role = .imports name ∧ visit.space = space
  parent : ∀ visit ∈ visits, visit.role = .opensNamespace →
    ∀ (slot : Nat) (scope : NamespaceScope), (slots visits)[slot]? = some (some visit.place) →
      scopes.namespaces[slot]? = some scope →
      ∃ parent : Nat, scope.parent = some parent ∧ (slots visits)[parent]? = some visit.space

theorem opens_empty : Opens [] {} where
  size_eq := rfl
  around := nofun
  imports slot space scope hspace hscope name := by
    obtain ⟨hlt, rfl⟩ := Array.getElem?_eq_some_iff.mp hscope
    obtain rfl : slot = 0 := Nat.lt_one_iff.mp hlt
    simp [NameSet.empty]
  parent := nofun

namespace Opens

variable {visits : List Visit} {visit : Visit} {scopes after : FileScopes} {slot : Nat}

/-- Only namespaces matter. -/
theorem congr (hopens : Opens visits scopes) (hsame : after.namespaces = scopes.namespaces) :
    Opens visits after where
  size_eq := hsame ▸ hopens.size_eq
  around := hopens.around
  imports := hsame ▸ hopens.imports
  parent := hsame ▸ hopens.parent

theorem around_concat (hopens : Opens visits scopes)
    (hslot : (slots visits)[slot]? = some visit.space) :
    ∀ other ∈ visits ++ [visit], other.space ∈ slots (visits ++ [visit]) := by
  intro other hother
  rw [slots_append]
  refine List.mem_append_left _ ?_
  rcases List.mem_append.mp hother with hold | hlast
  · exact hopens.around other hold
  · rw [List.mem_singleton.mp hlast]
    exact List.mem_of_getElem? hslot

/-- A visit that neither opens a namespace nor imports a name changes nothing. -/
theorem pass (hopens : Opens visits scopes) (hslot : (slots visits)[slot]? = some visit.space)
    (hrole : visit.role ≠ .opensNamespace) (himports : ∀ name, visit.role ≠ .imports name) :
    Opens (visits ++ [visit]) scopes where
  size_eq := by rw [slots_concat_of_not_opens hrole, hopens.size_eq]
  around := hopens.around_concat hslot
  imports other space scope hspace hscope name := by
    rw [slots_concat_of_not_opens hrole] at hspace
    rw [hopens.imports other space scope hspace hscope name]
    simp [or_and_right, exists_or, himports]
  parent opening hopening hopens' := by
    rw [slots_concat_of_not_opens hrole]
    rcases List.mem_append.mp hopening with hold | hlast
    · exact hopens.parent opening hold hopens'
    · rw [List.mem_singleton.mp hlast] at hopens'
      exact absurd hopens' hrole

/-- A namespace that was not visited before gets a new slot. -/
theorem openNamespace (hopens : Opens visits scopes)
    (hslot : (slots visits)[slot]? = some visit.space) (hrole : visit.role = .opensNamespace)
    (hfresh : some visit.place ∉ slots visits) :
    Opens (visits ++ [visit]) (scopes.openNamespace slot) where
  size_eq := by
    simp [FileScopes.openNamespace, slots_concat_of_opens hrole, hopens.size_eq]
  around := hopens.around_concat hslot
  imports other space scope hspace hscope name := by
    have himports : (∃ later ∈ visits ++ [visit], later.role = .imports name ∧
        later.space = space) ↔ ∃ later ∈ visits, later.role = .imports name ∧
        later.space = space := by
      simp [or_and_right, exists_or, hrole]
    rw [slots_concat_of_opens hrole] at hspace
    rw [FileScopes.openNamespace, Array.getElem?_push] at hscope
    rw [himports]
    split at hscope
    · next hlast =>
      cases hscope
      rw [hlast, hopens.size_eq, List.getElem?_concat_length] at hspace
      cases hspace
      refine iff_of_false (by simp [NameSet.empty]) ?_
      rintro ⟨later, hlater, _, hspace⟩
      exact hfresh (hspace ▸ hopens.around later hlater)
    · have hlt := (Array.getElem?_eq_some_iff.mp hscope).1
      rw [List.getElem?_append_left (hopens.size_eq ▸ hlt)] at hspace
      exact hopens.imports other space scope hspace hscope name
  parent opening hopening hopens' other scope hother hscope := by
    rw [slots_concat_of_opens hrole] at hother ⊢
    rw [FileScopes.openNamespace, Array.getElem?_push] at hscope
    have hkept {parent : Nat} {space : Option Place}
        (hparent : (slots visits)[parent]? = some space) :
        (slots visits ++ [some visit.place])[parent]? = some space := by
      rw [List.getElem?_append_left (List.getElem?_eq_some_iff.mp hparent).1, hparent]
    split at hscope
    · next hlast =>
      cases hscope
      rw [hlast, hopens.size_eq, List.getElem?_concat_length] at hother
      rcases List.mem_append.mp hopening with hold | hnew
      · refine absurd ?_ hfresh
        rw [Option.some.inj hother]
        exact List.mem_cons_of_mem _ (List.mem_map_of_mem
          (mem_openings.mpr ⟨opening, hold, hopens', rfl⟩))
      · rw [List.mem_singleton.mp hnew]
        exact ⟨slot, rfl, hkept hslot⟩
    · have hlt := (Array.getElem?_eq_some_iff.mp hscope).1
      rw [List.getElem?_append_left (hopens.size_eq ▸ hlt)] at hother
      rcases List.mem_append.mp hopening with hold | hnew
      · obtain ⟨parent, hparent, haround⟩ := hopens.parent opening hold hopens' other scope hother
          hscope
        exact ⟨parent, hparent, hkept haround⟩
      · rw [List.mem_singleton.mp hnew] at hother
        exact absurd (List.mem_of_getElem? hother) hfresh

/-- A namespace that is opened has the slot behind those that are there. -/
theorem getElem?_opened (hopens : Opens visits scopes) (hrole : visit.role = .opensNamespace) :
    (slots (visits ++ [visit]))[scopes.namespaces.size]? = some (some visit.place) := by
  rw [slots_concat_of_opens hrole, hopens.size_eq, List.getElem?_concat_length]

/-- An import goes to the slot of the innermost namespace around it. -/
theorem addImport {name : String} (hopens : Opens visits scopes)
    (hslot : (slots visits)[slot]? = some visit.space) (hrole : visit.role = .imports name)
    (hnodup : (slots visits).Nodup) :
    Opens (visits ++ [visit]) (scopes.addImport slot name) where
  size_eq := by
    simp [FileScopes.addImport, slots_concat_of_not_opens, hrole, hopens.size_eq]
  around := hopens.around_concat hslot
  imports other space scope hspace hscope text := by
    have himports : (∃ later ∈ visits ++ [visit], later.role = .imports text ∧
        later.space = space) ↔ (∃ later ∈ visits, later.role = .imports text ∧
        later.space = space) ∨ name = text ∧ visit.space = space := by
      simp [or_and_right, exists_or, hrole]
    rw [slots_concat_of_not_opens (by simp [hrole])] at hspace
    rw [FileScopes.addImport, Array.getElem?_modify] at hscope
    rw [himports]
    split at hscope
    · next hsame =>
      subst hsame
      obtain ⟨old, hold, rfl⟩ := Option.map_eq_some_iff.mp hscope
      rw [hslot] at hspace
      have hnames := hopens.imports slot space old (by rw [hslot, hspace]) hold text
      simp [hnames, Option.some.inj hspace, or_comm, eq_comm]
    · next hother =>
      have hdiffers : visit.space ≠ space := by
        rintro rfl
        have hlt := (List.getElem?_eq_some_iff.mp hslot).1
        exact hother ((List.getElem?_inj hlt hnodup).mp (hslot.trans hspace.symm))
      rw [hopens.imports other space scope hspace hscope text]
      simp [hdiffers]
  parent opening hopening hopens' other scope hother hscope := by
    rw [slots_concat_of_not_opens (by simp [hrole])] at hother ⊢
    rw [FileScopes.addImport, Array.getElem?_modify] at hscope
    rcases List.mem_append.mp hopening with hold | hlast
    · split at hscope
      · obtain ⟨before, hbefore, rfl⟩ := Option.map_eq_some_iff.mp hscope
        exact hopens.parent opening hold hopens' other before hother hbefore
      · exact hopens.parent opening hold hopens' other scope hother hscope
    · simp [List.mem_singleton.mp hlast, hrole] at hopens'

end Opens

section

variable {file : DecompiledFile} {module : Module} {all : List (Option Place)}

/-- What a walk adds to the scopes of a file: after it there are the scopes of the slots of all
visits, and the functions of the bodies with the scopes of their methods in these slots. -/
structure Collects (file : DecompiledFile) (module : Module) (all : List (Option Place))
    (visits : List Visit) (bodies : List (Option Place × Option UInt32))
    (scopes after : FileScopes) : Prop where
  opens : Opens visits after
  functions : ∀ id, id ∈ after.functions ↔ id ∈ scopes.functions ∨
    ∃ body ∈ bodies, ∃ entry, file.compiled? body.2 = some entry ∧ entry.id = id
  methods : ∀ scope, scope ∈ after.methods ↔ scope ∈ scopes.methods ∨
    ∃ body ∈ bodies, scope ∈ file.methodScopes module (all.idxOf body.1) body.2

namespace Collects

variable {visits others : List Visit} {bodies more : List (Option Place × Option UInt32)}
  {scopes middle after : FileScopes}

/-- Opening namespaces and adding imports leaves functions and methods as they are. -/
theorem of_opens (hopens : Opens visits after) (hfunctions : after.functions = scopes.functions)
    (hmethods : after.methods = scopes.methods) :
    Collects file module all visits [] scopes after where
  opens := hopens
  functions := by simp [hfunctions]
  methods := by simp [hmethods]

theorem trans (hfirst : Collects file module all others bodies scopes middle)
    (hsecond : Collects file module all visits more middle after) :
    Collects file module all visits (bodies ++ more) scopes after where
  opens := hsecond.opens
  functions id := by
    rw [hsecond.functions, hfirst.functions]
    simp only [List.mem_append, or_and_right, exists_or, or_assoc]
  methods scope := by
    rw [hsecond.methods, hfirst.methods]
    simp only [List.mem_append, or_and_right, exists_or, or_assoc]

/-- A function is collected with its body. -/
theorem addFunction {space : Option Place} {slot : Nat}
    (hcollects : Collects file module all visits bodies scopes after)
    (hslot : all.idxOf space = slot) (function : Option UInt32) :
    Collects file module all visits (bodies ++ [(space, function)]) scopes
      (after.addFunction file module slot function) := by
  refine hcollects.trans ⟨hcollects.opens.congr ?_, ?_, ?_⟩
  · rw [addFunction_eq]
  · simp [addFunction_eq]
  · simp [addFunction_eq, hslot]

theorem congr (hcollects : Collects file module all visits bodies scopes after)
    (hbodies : ∀ body, body ∈ more ↔ body ∈ bodies) :
    Collects file module all visits more scopes after where
  opens := hcollects.opens
  functions := by simpa only [hbodies] using hcollects.functions
  methods := by simpa only [hbodies] using hcollects.methods

end Collects

mutual

theorem collects_visit (hnodup : all.Nodup) {outer : Place} {space : Option Place}
    {depth slot i : Nat} {visits : List Visit} (node : SyntaxNode) {scopes after : FileScopes}
    (hopens : Opens visits scopes) (hslot : (slots visits)[slot]? = some space)
    (hall : slots (visits ++ walk ⟨outer ++ [i], space, depth + 1, node⟩) <+: all)
    (hvisit : visit file module depth slot (i == 0) node scopes = .ok after) :
    Collects file module all (visits ++ walk ⟨outer ++ [i], space, depth + 1, node⟩)
      (bodies (walk ⟨outer ++ [i], space, depth + 1, node⟩)) scopes after := by
  obtain ⟨kind, function, children⟩ := node
  have hrole : role ⟨outer ++ [i], space, depth + 1, ⟨kind, function, children⟩⟩ = _ :=
    role_concat i _
  have hpassed : kind.scopeRole (i == 0) ≠ .opensNamespace →
      (∀ name, kind.scopeRole (i == 0) ≠ .imports name) →
      Opens (visits ++ [⟨outer ++ [i], space, depth + 1, ⟨kind, function, children⟩⟩]) scopes := by
    rw [← hrole]
    exact hopens.pass hslot
  rw [walk_eq, List.append_cons] at hall ⊢
  rw [bodies_cons]
  unfold visit at hvisit
  split at hvisit
  · cases hvisit
  cases hkind : kind.scopeRole (i == 0) with
  | opensNamespace =>
    rw [hkind] at hrole hvisit
    rw [next_of_opens hrole] at hall ⊢
    have hfresh := notMem_slots_of_nodup hrole ((slots_grow.trans hall).sublist.nodup hnodup)
    have hopened := hopens.openNamespace hslot hrole hfresh
    have hcollects : Collects file module all _ [] scopes _ := .of_opens hopened rfl rfl
    have hchildren := collects_visitAll hnodup (i := 0) children hopened
      (hopens.getElem?_opened hrole) hall hvisit
    refine (hcollects.trans hchildren).congr ?_
    simp [Visit.functions, hrole]
  | imports name =>
    rw [hkind] at hrole hvisit
    cases hvisit
    have hnodupSlots := (slots_grow.trans (slots_grow.trans hall)).sublist.nodup hnodup
    have hadded := hopens.addImport hslot hrole hnodupSlots
    have hcollects : Collects file module all _ [] scopes _ := .of_opens hadded rfl rfl
    rw [next_of_imports hrole, List.flatMap_nil, List.append_nil]
    refine hcollects.congr ?_
    simp [Visit.functions, Visit.bodies, hrole]
  | body =>
    rw [hkind] at hrole hvisit
    rw [next_of_plain (.inr hrole)] at hall ⊢
    obtain ⟨middle, hmiddle, hpure⟩ := bind_eq_ok_iff.mp hvisit
    rw [← pure_eq_ok_iff.mp hpure]
    have hopened := hpassed (by simp [hkind]) (by simp [hkind])
    have hchildren := collects_visitAll hnodup (i := 0) children hopened (getElem?_slots hslot)
      hall hmiddle
    refine (hchildren.addFunction (idxOf_slot hall hnodup
      (getElem?_slots (getElem?_slots hslot))) function).congr ?_
    simp [Visit.functions, hrole, or_comm]
  | clauses functions =>
    rw [hkind] at hrole hvisit
    rw [next_of_clauses hrole] at hall ⊢
    have hopened := hpassed (by simp [hkind]) (by simp [hkind])
    have hclauses := collects_visitClauses hnodup (i := 0) functions children hopened
      (getElem?_slots hslot) hall hvisit
    refine hclauses.congr ?_
    simp [Visit.functions, hrole, or_comm]
  | plain =>
    rw [hkind] at hrole hvisit
    rw [next_of_plain (.inl hrole)] at hall ⊢
    have hopened := hpassed (by simp [hkind]) (by simp [hkind])
    have hchildren := collects_visitAll hnodup (i := 0) children hopened (getElem?_slots hslot)
      hall hvisit
    refine hchildren.congr ?_
    simp [Visit.functions, hrole]

theorem collects_visitAll (hnodup : all.Nodup) {outer : Place} {space : Option Place}
    {depth slot i : Nat} {visits : List Visit} (nodes : List SyntaxNode)
    {scopes after : FileScopes} (hopens : Opens visits scopes)
    (hslot : (slots visits)[slot]? = some space)
    (hall : slots (visits ++ (ofNodes outer space (depth + 1) i nodes).flatMap walk) <+: all)
    (hvisit : visitAll file module depth slot (i == 0) nodes scopes = .ok after) :
    Collects file module all (visits ++ (ofNodes outer space (depth + 1) i nodes).flatMap walk)
      (bodies ((ofNodes outer space (depth + 1) i nodes).flatMap walk)) scopes after := by
  cases nodes with
  | nil =>
    cases hvisit
    rw [ofNodes_nil, List.flatMap_nil, List.append_nil]
    exact .of_opens hopens rfl rfl
  | cons node nodes =>
    rw [ofNodes_cons, List.flatMap_cons, ← List.append_assoc] at hall ⊢
    rw [bodies_append]
    obtain ⟨middle, hfirst, hrest⟩ := bind_eq_ok_iff.mp hvisit
    have hmiddle := collects_visit hnodup node hopens hslot (slots_grow.trans hall) hfirst
    exact hmiddle.trans (collects_visitAll hnodup (i := i + 1) nodes hmiddle.opens
      (getElem?_slots hslot) hall hrest)

theorem collects_visitClauses (hnodup : all.Nodup) {outer : Place} {space : Option Place}
    {depth slot i : Nat} {visits : List Visit} (functions : List (Option UInt32))
    (nodes : List SyntaxNode) {scopes after : FileScopes} (hopens : Opens visits scopes)
    (hslot : (slots visits)[slot]? = some space)
    (hall : slots (visits ++ (ofClauses outer space (depth + 1) i functions nodes).flatMap walk)
      <+: all)
    (hvisit : visitClauses file module depth slot functions nodes scopes = .ok after) :
    Collects file module all
      (visits ++ (ofClauses outer space (depth + 1) i functions nodes).flatMap walk)
      (bodies ((ofClauses outer space (depth + 1) i functions nodes).flatMap walk) ++
        (functions.take nodes.length).map (space, ·)) scopes after := by
  cases functions with
  | nil =>
    rw [visitClauses] at hvisit
    · cases hvisit
      simpa [bodies] using Collects.of_opens hopens rfl rfl
    · nofun
  | cons function functions =>
    cases nodes with
    | nil =>
      rw [visitClauses] at hvisit
      · cases hvisit
        simpa [bodies] using Collects.of_opens hopens rfl rfl
      · nofun
    | cons body nodes =>
      obtain ⟨kind, own, children⟩ := body
      rw [visitClauses] at hvisit
      obtain ⟨middle, hfirst, hrest⟩ := bind_eq_ok_iff.mp hvisit
      rw [ofClauses_cons_cons, List.flatMap_append, ← List.append_assoc] at hall ⊢
      have hbody := collects_visitAll hnodup (i := 0) children hopens hslot
        (slots_grow.trans hall) hfirst
      have hown := hbody.addFunction (idxOf_slot (slots_grow.trans hall) hnodup
        (getElem?_slots hslot)) function
      have hmore := collects_visitClauses hnodup functions nodes hown.opens (getElem?_slots hslot)
        hall hrest
      refine (hown.trans hmore).congr ?_
      intro body
      simp [bodies_append, or_left_comm]

end

end

end FileScopes

/-- The namespaces that are visited are opened in the order of the text. -/
theorem pairwise_openings (trees : List SyntaxNode) :
    (Visit.openings (visitsOf trees)).Pairwise Place.Precedes :=
  List.pairwise_map.mpr ((pairwise_visitsOf trees).sublist List.filter_sublist)

theorem nodup_slots (trees : List SyntaxNode) : (Visit.slots (visitsOf trees)).Nodup := by
  refine List.nodup_cons.mpr ⟨by simp, ?_⟩
  refine List.pairwise_map.mpr ((pairwise_openings trees).imp ?_)
  intro first second hprecedes hsame
  cases hsame
  exact Place.precedes_irrefl first hprecedes

/-- The walk through a file collects what its visits have. -/
theorem FileScopes.collects_ofFile {file : DecompiledFile} {module : Module} {scopes : FileScopes}
    (hfile : ofFile file module = .ok scopes) :
    Collects file module (Visit.slots (visitsOf file.syntaxTrees)) (visitsOf file.syntaxTrees)
      (Visit.bodies (visitsOf file.syntaxTrees)) {} scopes :=
  collects_visitAll (i := 0) (nodup_slots _) file.syntaxTrees opens_empty rfl
    List.prefix_rfl hfile

namespace FileScopes

variable {file : DecompiledFile} {module : Module} {scopes : FileScopes}

/-- A scope is as long as the code of its method. -/
theorem exists_code_of_ofFile (hfile : ofFile file module = .ok scopes) {scope : MethodScope}
    (hscope : scope ∈ scopes.methods) :
    ∃ code, (module.method? scope.method).bind (·.code) = some code ∧ scope.length = code.size := by
  rcases ((collects_ofFile hfile).methods scope).mp hscope with hnone | ⟨body, _, hbody⟩
  · simp at hnone
  · obtain ⟨entry, method, code, _, _, hcode, rfl⟩ := DecompiledFile.mem_methodScopes.mp hbody
    exact ⟨code, hcode, rfl⟩

/-- The methods with scopes are those of the listed functions that have code. -/
theorem exists_scope_iff (hfile : ofFile file module = .ok scopes) {method : Token} :
    (∃ scope ∈ scopes.methods, scope.method = method) ↔
      (∃ code, (module.method? method).bind (·.code) = some code) ∧
      ∃ id ∈ scopes.functions, ∃ function, file.function? id = some function ∧
        method ∈ function.method :: function.moveNext.toList := by
  have hcollects := collects_ofFile hfile
  simp only [hcollects.methods, hcollects.functions]
  constructor
  · rintro ⟨scope, hnone | ⟨body, hbody, hscope⟩, rfl⟩
    · simp at hnone
    · obtain ⟨entry, method, code, hentry, hmethod, hcode, rfl⟩ :=
        DecompiledFile.mem_methodScopes.mp hscope
      obtain ⟨id, hid, hfound, _⟩ := DecompiledFile.compiled?_eq_some.mp hentry
      rw [DecompiledFile.eq_id_of_compiled? hentry] at hid
      cases hid
      exact ⟨⟨code, hcode⟩, entry.id, .inr ⟨body, hbody, entry, hentry, rfl⟩, entry, hfound,
        hmethod⟩
  · rintro ⟨⟨code, hcode⟩, id, hnone | ⟨body, hbody, entry, hentry, rfl⟩, function, hfunction,
      hmethod⟩
    · simp at hnone
    · obtain ⟨id, hid, hfound, _⟩ := DecompiledFile.compiled?_eq_some.mp hentry
      rw [DecompiledFile.eq_id_of_compiled? hentry] at hid
      cases hid
      rw [hfound] at hfunction
      cases hfunction
      exact ⟨⟨method, _, code.size⟩, .inr ⟨body, hbody, DecompiledFile.mem_methodScopes.mpr
        ⟨entry, method, code, hentry, hmethod, hcode, rfl⟩⟩, rfl⟩

end FileScopes

/-- The kinds of nodes that are the body of their own function. The first `from` of a query is not
one of them. -/
def NodeKind.IsBody (isFirst : Bool) (kind : NodeKind) : Prop :=
  kind.isMethodLike = true ∨ kind = .property true ∨ kind = .indexer true ∨
    kind = .queryFrom ∧ isFirst = false

/-- The functions of a clause. -/
def NodeKind.clauseFunctions : NodeKind → List (Option UInt32)
  | .queryGroup first second | .queryJoin first second => [first, second]
  | _ => []

/-- Whether a node is the body of a function, or a clause that has a child for it. -/
def SyntaxNode.Holds (isFirst : Bool) (id : UInt32) (node : SyntaxNode) : Prop :=
  (node.kind.IsBody isFirst ∧ node.function = some id) ∨
    ∃ i < node.children.length, node.kind.clauseFunctions[i]? = some (some id)

theorem NodeKind.scopeRole_eq_body_iff {isFirst : Bool} {kind : NodeKind} :
    kind.scopeRole isFirst = .body ↔ kind.IsBody isFirst := by
  cases kind with
  | queryGroup first second | queryJoin first second =>
    cases first <;> cases second <;> simp [scopeRole, IsBody, isMethodLike]
  | _ => cases isFirst <;> simp [scopeRole, IsBody, isMethodLike]

theorem NodeKind.clauseFunctions_of_scopeRole {isFirst : Bool} {kind : NodeKind}
    {functions : List (Option UInt32)} (hrole : kind.scopeRole isFirst = .clauses functions) :
    kind.clauseFunctions = functions := by
  cases kind with
  | queryGroup first second | queryJoin first second =>
    cases first <;> cases second <;> simp_all [scopeRole, clauseFunctions]
  | property hasBody | indexer hasBody => cases hasBody <;> simp [scopeRole] at hrole
  | _ => cases isFirst <;> simp [scopeRole, isMethodLike] at hrole

theorem NodeKind.scopeRole_of_mem {isFirst : Bool} {kind : NodeKind} {id : UInt32}
    (hid : some id ∈ kind.clauseFunctions) :
    kind.scopeRole isFirst = .clauses kind.clauseFunctions := by
  cases kind with
  | queryGroup first second | queryJoin first second =>
    cases first <;> cases second <;> simp_all [scopeRole, clauseFunctions]
  | _ => simp [clauseFunctions] at hid

/-- The functions at a visit are those that its node holds. -/
theorem Visit.mem_functions {visit : Visit} {id : UInt32} :
    some id ∈ visit.functions ↔ visit.node.Holds (visit.place.getLast? == some 0) id := by
  constructor
  · intro hid
    unfold functions at hid
    split at hid
    · next hrole =>
      exact .inl ⟨NodeKind.scopeRole_eq_body_iff.mp hrole, (List.mem_singleton.mp hid).symm⟩
    · next functions hrole =>
      obtain ⟨i, hi⟩ := List.mem_iff_getElem?.mp hid
      rw [List.getElem?_take, Option.ite_none_right_eq_some] at hi
      exact .inr ⟨i, hi.1, by rw [NodeKind.clauseFunctions_of_scopeRole hrole, hi.2]⟩
    · cases hid
  · rintro (⟨hbody, hid⟩ | ⟨i, hlt, hid⟩)
    · have hrole : visit.role = .body := NodeKind.scopeRole_eq_body_iff.mpr hbody
      simp [functions, hrole, hid]
    · have hrole : visit.role = .clauses visit.node.kind.clauseFunctions :=
        NodeKind.scopeRole_of_mem (List.mem_of_getElem? hid)
      simp only [functions, hrole]
      exact List.mem_of_getElem? (by rw [List.getElem?_take, if_pos hlt, hid])

namespace FileScopes

variable {file : DecompiledFile} {module : Module} {scopes : FileScopes}

/-- The functions of the scopes of a file are the methods among those that the nodes of its trees
hold, apart from the nodes that the walk passes over: those inside imports, and those that a clause
with functions has as their bodies or behind these. -/
theorem functions_of_ofFile (hfile : ofFile file module = .ok scopes) (id : UInt32) :
    id ∈ scopes.functions ↔ (file.compiled? (some id)).isSome = true ∧
      ∃ place node, SyntaxNode.at? file.syntaxTrees place = some node ∧
        node.Holds (place.getLast? == some 0) id ∧
        ¬ ∃ visit, Visits file.syntaxTrees visit ∧ visit.Skips place := by
  rw [(collects_ofFile hfile).functions]
  simp only [Visit.mem_bodies, mem_visitsOf]
  constructor
  · rintro (hnone | ⟨body, ⟨visit, hvisit, _, hbody⟩, entry, hentry, rfl⟩)
    · simp at hnone
    · rw [DecompiledFile.eq_id_of_compiled? hentry] at hbody hentry
      refine ⟨by rw [hentry]; rfl, visit.place, visit.node, hvisit.at?_place,
        Visit.mem_functions.mp hbody, ?_⟩
      exact (Visits.visited_iff hvisit.at?_place).mp ⟨visit, hvisit, rfl, rfl⟩
  · rintro ⟨hlisted, place, node, hnode, hholds, hreached⟩
    obtain ⟨visit, hvisit, rfl, rfl⟩ := (Visits.visited_iff hnode).mpr hreached
    obtain ⟨entry, hentry⟩ := Option.isSome_iff_exists.mp hlisted
    have hsame := DecompiledFile.eq_id_of_compiled? hentry
    exact .inr ⟨(visit.space, some id), ⟨visit, hvisit, rfl, Visit.mem_functions.mpr hholds⟩,
      entry, hentry, (Option.some.inj hsame).symm⟩

/-- A method with a query that joins what a lambda selects. -/
def joinFile : DecompiledFile where
  syntaxTrees :=
    [⟨.usingNamespace "System", none, []⟩,
      ⟨.namespaceScope "App", none,
        [⟨.usingNamespace "System.Linq", none, []⟩, ⟨.method, some 0,
          [⟨.queryJoin (some 1) (some 2), none,
            [⟨.other, none, []⟩, ⟨.other, none, []⟩, ⟨.lambda, some 3, []⟩]⟩]⟩]⟩]
  functions :=
    [{ id := 0, method := .methodDef 1 }, { id := 1, method := .methodDef 2 },
      { id := 2, method := .methodDef 3 }, { id := 3, method := .methodDef 4 }]

/-- The module of the method, its lambda, and the keys of the join. -/
def joinModule : Module where
  name := "App.dll"
  methods :=
    #[⟨.methodDef 1, "Main", .typeDef 2, some ⟨30, 0⟩⟩,
      ⟨.methodDef 2, "<Main>b__0", .typeDef 2, some ⟨8, 0⟩⟩,
      ⟨.methodDef 3, "<Main>b__1", .typeDef 2, some ⟨8, 0⟩⟩,
      ⟨.methodDef 4, "<Main>b__2", .typeDef 2, some ⟨6, 0⟩⟩]
  types :=
    #[⟨.typeDef 1, "", "<Module>", none, #[]⟩,
      ⟨.typeDef 2, "App", "Program", none,
        #[.methodDef 1, .methodDef 2, .methodDef 3, .methodDef 4]⟩]
  rowCounts := (RowCounts.none.setTable .methodDef 4).setTable .typeDef 2
  entryPoint := ⟨0⟩
  debugEntries := []
  codeView := none

/-- The scopes of the query, without the lambda. -/
def joinScopes : FileScopes where
  namespaces := #[⟨none, .ofList ["System"]⟩, ⟨some 0, .ofList ["System.Linq"]⟩]
  methods := #[⟨.methodDef 2, 1, 8⟩, ⟨.methodDef 3, 1, 8⟩, ⟨.methodDef 1, 1, 30⟩]
  functions := #[1, 2, 0]

theorem functions_of_ofFile_join : ofFile joinFile joinModule = .ok joinScopes ∧
    ∀ id, id ∈ joinScopes.functions ↔ (joinFile.compiled? (some id)).isSome = true ∧
      ∃ place node, SyntaxNode.at? joinFile.syntaxTrees place = some node ∧
        node.Holds (place.getLast? == some 0) id ∧
        ¬ ∃ visit, Visits joinFile.syntaxTrees visit ∧ visit.Skips place := by
  have hfile : ofFile joinFile joinModule = .ok joinScopes := by
    decide
  exact ⟨hfile, functions_of_ofFile hfile⟩

/-- The lambda is left out though it is the body of a method of the module. -/
theorem not_mem_functions_of_join : ofFile joinFile joinModule = .ok joinScopes ∧
    (∃ place node, SyntaxNode.at? joinFile.syntaxTrees place = some node ∧
      node.kind.isMethodLike = true ∧ node.function = some 3) ∧
    (joinFile.compiled? (some 3)).isSome = true ∧ 3 ∉ joinScopes.functions := by
  refine ⟨by decide, ⟨[1, 1, 0, 2], ⟨.lambda, some 3, []⟩, rfl, rfl, rfl⟩, rfl, ?_⟩
  simp [joinScopes]

/-- The namespaces that a walk visits are opened in the order of the text, each with a slot behind
that of the file itself, and each within the slot of the innermost namespace around it. The imports
of a slot are those whose innermost namespace it is. The scopes of methods are those of the
functions at the visits, from the start of their code to its end, in the slot of the innermost
namespace around the visit. -/
theorem importTree_of_ofFile (hfile : ofFile file module = .ok scopes) :
    ∃ spaces : List Place, spaces.Pairwise Place.Precedes ∧
      (∀ space, space ∈ spaces ↔ ∃ visit, Visits file.syntaxTrees visit ∧
        visit.role = .opensNamespace ∧ visit.place = space) ∧
      scopes.namespaces.size = spaces.length + 1 ∧
      (∀ slot space scope, (none :: spaces.map some)[slot]? = some space →
        scopes.namespaces[slot]? = some scope →
        (slot = 0 → scope.parent = none) ∧
        (∀ visit, Visits file.syntaxTrees visit → visit.role = .opensNamespace →
          space = some visit.place → ∃ parent < slot, scope.parent = some parent ∧
            (none :: spaces.map some)[parent]? = some visit.space) ∧
        ∀ name, name ∈ scope.imports.toList ↔ ∃ visit, Visits file.syntaxTrees visit ∧
          visit.role = .imports name ∧ visit.space = space) ∧
      (∀ scope, scope ∈ scopes.methods ↔ ∃ visit function entry method code,
        Visits file.syntaxTrees visit ∧ function ∈ visit.functions ∧
        file.compiled? function = some entry ∧ method ∈ entry.method :: entry.moveNext.toList ∧
        (module.method? method).bind (·.code) = some code ∧ scope.method = method ∧
        (none :: spaces.map some)[scope.namespaceScope]? = some visit.space ∧
        (ScopeRecord.mk scopes.namespaces scope).key = (method.row, 0, code.size)) ∧
      ∀ visit, Visits file.syntaxTrees visit →
        Visits.IsInnermost file.syntaxTrees visit.place visit.space := by
  have hcollects := collects_ofFile hfile
  have hnested := isNested_of_ofFile hfile
  refine ⟨Visit.openings (visitsOf file.syntaxTrees), pairwise_openings _, ?_, ?_, ?_, ?_, ?_⟩
  · simp only [Visit.mem_openings, mem_visitsOf, implies_true]
  · rw [hcollects.opens.size_eq, Visit.slots, List.length_cons, List.length_map]
  · intro slot space scope hspace hscope
    refine ⟨?_, ?_, ?_⟩
    · rintro rfl
      obtain ⟨imports, hfirst⟩ := hnested.file
      rw [hfirst] at hscope
      cases hscope
      rfl
    · rintro visit hvisit hrole rfl
      obtain ⟨parent, hparent, haround⟩ := hcollects.opens.parent visit (mem_visitsOf.mpr hvisit)
        hrole slot scope hspace hscope
      exact ⟨parent, hnested.parent_lt hscope hparent, hparent, haround⟩
    · simpa only [mem_visitsOf] using hcollects.opens.imports slot space scope hspace hscope
  · intro scope
    rw [hcollects.methods]
    simp only [Visit.mem_bodies, mem_visitsOf, DecompiledFile.mem_methodScopes]
    constructor
    · rintro (hnone | ⟨⟨space, function⟩, ⟨visit, hvisit, hspace, hfunction⟩, entry, method, code,
        hentry, hmethod, hcode, rfl⟩)
      · simp at hnone
      · refine ⟨visit, function, entry, method, code, hvisit, hfunction, hentry, hmethod, hcode,
          rfl, ?_, rfl⟩
        obtain rfl : space = visit.space := hspace
        exact List.getElem?_idxOf (hcollects.opens.around visit (mem_visitsOf.mpr hvisit))
    · rintro ⟨visit, function, entry, method, code, hvisit, hfunction, hentry, hmethod, hcode,
        rfl, hslot, hkey⟩
      have hindex := Visit.idxOf_slot List.prefix_rfl (nodup_slots _) hslot
      refine .inr ⟨(visit.space, function), ⟨visit, hvisit, rfl, hfunction⟩, entry, scope.method,
        code, hentry, hmethod, hcode, ?_⟩
      have hlength : scope.length = code.size := congrArg (·.2.2) hkey
      rw [hindex, ← hlength]
  · exact fun visit hvisit => hvisit.isInnermost

theorem importTree_of_ofFile_join : ofFile joinFile joinModule = .ok joinScopes ∧
    ∃ spaces : List Place, spaces.Pairwise Place.Precedes ∧ spaces.length = 1 ∧
      ∀ visit, Visits joinFile.syntaxTrees visit →
        Visits.IsInnermost joinFile.syntaxTrees visit.place visit.space := by
  have hfile : ofFile joinFile joinModule = .ok joinScopes := by
    decide
  obtain ⟨spaces, hspaces, _, hsize, _, _, hinnermost⟩ := importTree_of_ofFile hfile
  exact ⟨hfile, spaces, hspaces, Nat.succ.inj hsize.symm, hinnermost⟩

end FileScopes

end PortablePdb
