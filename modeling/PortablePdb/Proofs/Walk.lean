import PortablePdb.Scopes.Collect
import PortablePdb.Proofs.Reading

namespace PortablePdb.FileScopes

/-- Scopes are related to what a walk within a namespace makes of them. To open a namespace is to
walk within it from there on. -/
structure IsWalk (file : DecompiledFile) (module : Module)
    (walks : Nat → FileScopes → FileScopes → Prop) : Prop where
  self : ∀ slot scopes, walks slot scopes scopes
  trans : ∀ {slot scopes middle after}, walks slot scopes middle → walks slot middle after →
    walks slot scopes after
  openNamespace : ∀ {slot scopes after},
    walks scopes.namespaces.size (scopes.openNamespace slot) after → walks slot scopes after
  addImport : ∀ slot scopes name, walks slot scopes (scopes.addImport slot name)
  addFunction : ∀ slot scopes function,
    walks slot scopes (scopes.addFunction file module slot function)

namespace IsWalk

variable {file : DecompiledFile} {module : Module} {walks : Nat → FileScopes → FileScopes → Prop}

mutual

theorem visit (hwalk : IsWalk file module walks) {depth slot : Nat} {isFirst : Bool}
    (node : SyntaxNode) {scopes after : FileScopes}
    (hvisit : FileScopes.visit file module depth slot isFirst node scopes = .ok after) :
    walks slot scopes after := by
  obtain ⟨kind, function, children⟩ := node
  unfold FileScopes.visit at hvisit
  split at hvisit
  · cases hvisit
  · split at hvisit
    · exact hwalk.openNamespace (hwalk.visitAll children hvisit)
    · next name _ =>
      cases hvisit
      exact hwalk.addImport slot scopes name
    · obtain ⟨middle, hmiddle, hvisit⟩ := bind_eq_ok_iff.mp hvisit
      rw [← pure_eq_ok_iff.mp hvisit]
      exact hwalk.trans (hwalk.visitAll children hmiddle) (hwalk.addFunction slot middle function)
    · exact hwalk.visitClauses _ children hvisit
    · exact hwalk.visitAll children hvisit

theorem visitAll (hwalk : IsWalk file module walks) {depth slot : Nat} {isFirst : Bool}
    (nodes : List SyntaxNode) {scopes after : FileScopes}
    (hvisit : FileScopes.visitAll file module depth slot isFirst nodes scopes = .ok after) :
    walks slot scopes after := by
  cases nodes with
  | nil =>
    cases hvisit
    exact hwalk.self slot scopes
  | cons node nodes =>
    unfold FileScopes.visitAll at hvisit
    obtain ⟨middle, hmiddle, hvisit⟩ := bind_eq_ok_iff.mp hvisit
    exact hwalk.trans (hwalk.visit node hmiddle) (hwalk.visitAll nodes hvisit)

theorem visitClauses (hwalk : IsWalk file module walks) {depth slot : Nat}
    (functions : List (Option UInt32)) (nodes : List SyntaxNode) {scopes after : FileScopes}
    (hvisit : FileScopes.visitClauses file module depth slot functions nodes scopes = .ok after) :
    walks slot scopes after := by
  cases functions with
  | nil =>
    rw [FileScopes.visitClauses] at hvisit
    · cases hvisit
      exact hwalk.self slot scopes
    · nofun
  | cons function functions =>
    cases nodes with
    | nil =>
      rw [FileScopes.visitClauses] at hvisit
      · cases hvisit
        exact hwalk.self slot scopes
      · nofun
    | cons node nodes =>
      obtain ⟨kind, own, children⟩ := node
      unfold FileScopes.visitClauses at hvisit
      obtain ⟨middle, hmiddle, hvisit⟩ := bind_eq_ok_iff.mp hvisit
      exact hwalk.trans (hwalk.visitAll children hmiddle)
        (hwalk.trans (hwalk.addFunction slot middle function)
          (hwalk.visitClauses functions nodes hvisit))

end

/-- The scopes of a file come from a walk within the file itself. -/
theorem of_ofFile (hwalk : IsWalk file module walks) {scopes : FileScopes}
    (hfile : ofFile file module = .ok scopes) : walks 0 {} scopes :=
  hwalk.visitAll file.syntaxTrees hfile

end IsWalk

/-- A property of scopes that each step of a walk keeps. -/
structure IsKept (file : DecompiledFile) (module : Module) (motive : FileScopes → Prop) : Prop where
  openNamespace : ∀ {scopes} (slot : Nat), motive scopes → motive (scopes.openNamespace slot)
  addImport : ∀ {scopes} (slot : Nat) (name : String), motive scopes →
    motive (scopes.addImport slot name)
  addFunction : ∀ {scopes} (slot : Nat) (function : Option UInt32), motive scopes →
    motive (scopes.addFunction file module slot function)

/-- What all steps keep holds of the scopes of a file. -/
theorem IsKept.of_ofFile {file : DecompiledFile} {module : Module} {motive : FileScopes → Prop}
    (hkept : IsKept file module motive) (hempty : motive {}) {scopes : FileScopes}
    (hfile : ofFile file module = .ok scopes) : motive scopes := by
  have hwalk : IsWalk file module fun _ scopes after => motive scopes → motive after := {
    self := fun _ _ hscopes => hscopes
    trans := fun hfirst hsecond hscopes => hsecond (hfirst hscopes)
    openNamespace := fun hafter hscopes => hafter (hkept.openNamespace _ hscopes)
    addImport := fun slot _ name => hkept.addImport slot name
    addFunction := fun slot _ function => hkept.addFunction slot function }
  exact hwalk.of_ofFile hfile hempty

variable {file : DecompiledFile} {module : Module}

/-- The scopes of methods are those of methods of a module. -/
def AreOfMethods (module : Module) (scopes : FileScopes) : Prop :=
  ∀ scope ∈ scopes.methods, (module.method? scope.method).isSome = true

theorem AreOfMethods.addMethod {scopes : FileScopes} (hscopes : scopes.AreOfMethods module)
    (slot : Nat) (method : Token) :
    (FileScopes.addMethod module slot scopes method).AreOfMethods module := by
  unfold FileScopes.addMethod
  split
  · next code hcode =>
    obtain ⟨found, hfound, _⟩ := Option.bind_eq_some_iff.mp hcode
    intro scope hscope
    rcases Array.mem_push.mp hscope with hold | rfl
    · exact hscopes scope hold
    · rw [hfound]
      rfl
  · exact hscopes

theorem isKept_areOfMethods (file : DecompiledFile) (module : Module) :
    IsKept file module (AreOfMethods module) where
  openNamespace _ hscopes := hscopes
  addImport _ _ hscopes := hscopes
  addFunction := by
    intro scopes slot function hscopes
    have hfold (methods : List Token) {scopes : FileScopes}
        (hscopes : scopes.AreOfMethods module) :
        (methods.foldl (FileScopes.addMethod module slot) scopes).AreOfMethods module := by
      induction methods generalizing scopes with
      | nil => exact hscopes
      | cons method methods ih => exact ih (hscopes.addMethod slot method)
    unfold FileScopes.addFunction
    split
    · split
      · exact hfold _ hscopes
      · exact hscopes
    · exact hscopes

/-- All scopes of methods of a file are those of methods of the module. -/
theorem areOfMethods_of_ofFile {scopes : FileScopes} (hfile : ofFile file module = .ok scopes) :
    scopes.AreOfMethods module :=
  (isKept_areOfMethods file module).of_ofFile nofun hfile

end PortablePdb.FileScopes
