import PortablePdb.Proofs.Walk

namespace PortablePdb

namespace FileScopes

/-- The namespaces of a file are nested, and each method is in one of them. -/
structure IsNested (scopes : FileScopes) : Prop where
  file : ∃ imports, scopes.namespaces[0]? = some ⟨none, imports⟩
  parent : ∀ slot scope, 0 < slot → scopes.namespaces[slot]? = some scope →
    ∃ parent < slot, scope.parent = some parent
  methods : ∀ method ∈ scopes.methods, method.namespaceScope < scopes.namespaces.size

theorem isNested_empty : IsNested {} where
  file := ⟨.empty, rfl⟩
  parent slot scope hslot hscope := by
    have hlt := (Array.getElem?_eq_some_iff.mp hscope).1
    have hone : slot < 1 := hlt
    omega
  methods := nofun

variable {file : DecompiledFile} {module : Module} {scopes after : FileScopes} {slot : Nat}

/-- Only the file itself has no namespace around it. -/
theorem IsNested.eq_zero_of_parent (hnested : scopes.IsNested) {scope : NamespaceScope}
    (hscope : scopes.namespaces[slot]? = some scope) (hparent : scope.parent = none) :
    slot = 0 := by
  rcases Nat.eq_zero_or_pos slot with hzero | hpos
  · exact hzero
  · obtain ⟨_, _, hsome⟩ := hnested.parent slot scope hpos hscope
    cases hparent.symm.trans hsome

/-- The namespace around another one was opened before it. -/
theorem IsNested.parent_lt (hnested : scopes.IsNested) {scope : NamespaceScope} {parent : Nat}
    (hscope : scopes.namespaces[slot]? = some scope) (hparent : scope.parent = some parent) :
    parent < slot := by
  rcases Nat.eq_zero_or_pos slot with rfl | hpos
  · obtain ⟨_, hfile⟩ := hnested.file
    cases hfile.symm.trans hscope
    cases hparent
  · obtain ⟨_, hlt, hsome⟩ := hnested.parent slot scope hpos hscope
    cases hparent.symm.trans hsome
    exact hlt

theorem IsNested.openNamespace (hscopes : scopes.IsNested) (hslot : slot < scopes.namespaces.size) :
    (scopes.openNamespace slot).IsNested where
  file := by
    obtain ⟨imports, hfile⟩ := hscopes.file
    have hlt := (Array.getElem?_eq_some_iff.mp hfile).1
    refine ⟨imports, ?_⟩
    rw [FileScopes.openNamespace, Array.getElem?_push_lt hlt, ← hfile,
      Array.getElem?_eq_getElem hlt]
  parent other scope hpos hscope := by
    rw [FileScopes.openNamespace, Array.getElem?_push] at hscope
    split at hscope
    · next hlast =>
      cases hscope
      exact ⟨slot, by omega, rfl⟩
    · exact hscopes.parent other scope hpos hscope
  methods method hmethod := by
    have hlt := hscopes.methods method hmethod
    rw [FileScopes.openNamespace, Array.size_push]
    omega

theorem IsNested.addImport (hscopes : scopes.IsNested) (slot : Nat) (name : String) :
    (scopes.addImport slot name).IsNested where
  file := by
    obtain ⟨imports, hfile⟩ := hscopes.file
    simp only [FileScopes.addImport, Array.getElem?_modify, hfile]
    split <;> exact ⟨_, rfl⟩
  parent other scope hpos hscope := by
    simp only [FileScopes.addImport, Array.getElem?_modify] at hscope
    split at hscope
    · obtain ⟨old, hold, rfl⟩ := Option.map_eq_some_iff.mp hscope
      exact hscopes.parent other old hpos hold
    · exact hscopes.parent other scope hpos hscope
  methods method hmethod := by
    rw [FileScopes.addImport, Array.size_modify]
    exact hscopes.methods method hmethod

/-- What a walk within a namespace makes of nested scopes is nested, and no namespace is lost. -/
def Walks (slot : Nat) (scopes after : FileScopes) : Prop :=
  scopes.namespaces.size ≤ after.namespaces.size ∧
    (slot < scopes.namespaces.size → scopes.IsNested → after.IsNested)

theorem walks_self (slot : Nat) (scopes : FileScopes) : Walks slot scopes scopes :=
  ⟨Nat.le_refl _, fun _ hscopes => hscopes⟩

theorem Walks.trans {middle : FileScopes} (hfirst : Walks slot scopes middle)
    (hsecond : Walks slot middle after) : Walks slot scopes after :=
  ⟨Nat.le_trans hfirst.1 hsecond.1, fun hslot hscopes =>
    hsecond.2 (Nat.lt_of_lt_of_le hslot hfirst.1) (hfirst.2 hslot hscopes)⟩

theorem walks_addMethod (module : Module) (slot : Nat) (scopes : FileScopes) (method : Token) :
    Walks slot scopes (addMethod module slot scopes method) := by
  unfold addMethod
  split
  · refine ⟨Nat.le_refl _, fun hslot hscopes => ⟨hscopes.file, hscopes.parent, ?_⟩⟩
    intro other hother
    rcases Array.mem_push.mp hother with hold | rfl
    · exact hscopes.methods other hold
    · exact hslot
  · exact walks_self slot scopes

theorem walks_addFunction (file : DecompiledFile) (module : Module) (slot : Nat)
    (scopes : FileScopes) (function : Option UInt32) :
    Walks slot scopes (scopes.addFunction file module slot function) := by
  have hfold (methods : List Token) (scopes : FileScopes) :
      Walks slot scopes (methods.foldl (addMethod module slot) scopes) := by
    induction methods generalizing scopes with
    | nil => exact walks_self slot scopes
    | cons method methods ih => exact (walks_addMethod module slot scopes method).trans (ih _)
  unfold addFunction
  split
  · split
    · next entry _ _ =>
      have hlisted : Walks slot scopes
          { scopes with functions := scopes.functions.push entry.id } :=
        ⟨Nat.le_refl _, fun _ hscopes => ⟨hscopes.file, hscopes.parent, hscopes.methods⟩⟩
      exact hlisted.trans (hfold _ _)
    · exact walks_self slot scopes
  · exact walks_self slot scopes

theorem isWalk_walks (file : DecompiledFile) (module : Module) : IsWalk file module Walks where
  self := walks_self
  trans := Walks.trans
  openNamespace := by
    rintro slot scopes after ⟨hgrows, hnested⟩
    rw [openNamespace, Array.size_push] at hgrows hnested
    exact ⟨by omega, fun hslot hscopes => hnested (by omega) (hscopes.openNamespace hslot)⟩
  addImport slot _ name :=
    ⟨Nat.le_of_eq Array.size_modify.symm, fun _ hscopes => hscopes.addImport slot name⟩
  addFunction slot scopes function := walks_addFunction file module slot scopes function

/-- The namespaces of a file that was walked through are nested. -/
theorem isNested_of_ofFile (hfile : ofFile file module = .ok scopes) : scopes.IsNested :=
  ((isWalk_walks file module).of_ofFile hfile).2 Nat.zero_lt_one isNested_empty

/-- The sets of names that the namespaces around a place import, from the inside out. The file
itself is the last of them, but counts only if it imports anything. -/
inductive Encloses (namespaces : Array NamespaceScope) : Nat → List NameSet → Prop
  | emptyFile {imports : NameSet} (hfile : namespaces[0]? = some ⟨none, imports⟩)
      (hempty : imports.isEmpty = true) : Encloses namespaces 0 []
  | file {imports : NameSet} (hfile : namespaces[0]? = some ⟨none, imports⟩)
      (himports : imports.isEmpty = false) : Encloses namespaces 0 [imports]
  | inner {slot parent : Nat} {imports : NameSet} {outer : List NameSet}
      (hscope : namespaces[slot]? = some ⟨some parent, imports⟩)
      (houter : Encloses namespaces parent outer) : Encloses namespaces slot (imports :: outer)

end FileScopes

end PortablePdb
