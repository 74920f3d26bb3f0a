import PortablePdb.Proofs.Additions

namespace PortablePdb.DebugBuilder

open HeapBuilders

namespace Event

/-- The row of a document that an event told. -/
@[simp] def documentRow? : Event → Option UInt32
  | ⟨.addDocument _, .ok (.row rid)⟩ => some rid
  | ⟨.documentRow _, .ok (.found rid?)⟩ => rid?
  | _ => none

/-- The row of a scope of imports that an event told. -/
@[simp] def importRow? : Event → Option UInt32
  | ⟨.addImportScope _ _, .ok (.row rid)⟩ => some rid
  | _ => none

/-- The parent that was given for custom debug information. -/
@[simp] def parent? : Event → Option CodedIndex
  | ⟨.addCustomInfo parent _ _, .ok _⟩ => some parent
  | _ => none

end Event

variable {builder after : DebugBuilder} {events : List Event} {event : Event}

/-- The rows that a history was told are there, and rows refer to what the heaps hold. A document is
the only parent of custom debug information that was not given. -/
structure Backs (builder : DebugBuilder) (events : List Event) : Prop where
  heaps : builder.heaps.IsLookup
  known : ∀ (path : String) (rid : UInt32), builder.documentRows[path]? = some rid →
    rid.toNat ≤ builder.documents.size
  documentRows : ∀ rid ∈ events.filterMap Event.documentRow?, rid.toNat ≤ builder.documents.size
  importRows : ∀ rid ∈ events.filterMap Event.importRow?, rid.toNat ≤ builder.importScopes.size
  documents : ∀ row ∈ builder.documents, ∃ document,
    row.Describes builder.heaps.blobs.data builder.heaps.guids.data document
  importScopes : ∀ row ∈ builder.importScopes, ∃ names,
    row.Imports builder.heaps.blobs.data names
  parents : ∀ info ∈ events.filterMap Event.info?, info.1 ∈ events.filterMap Event.parent? ∨
    info.1.table = .document ∧ info.1.row.toNat ≤ builder.documents.size

theorem backs_empty : empty.Backs [] where
  heaps := isLookup_empty
  known path rid hfound := by simp [empty] at hfound
  documentRows := nofun
  importRows := nofun
  documents := isClosed_empty.documents
  importScopes := isClosed_empty.importScopes
  parents := nofun

/-- What an event adds to the rows that a builder has told: heaps and tables grow, and what is told
is there afterwards. -/
structure Tells (builder : DebugBuilder) (event : Event) (after : DebugBuilder) : Prop where
  heaps : builder.heaps.GrowsTo after.heaps
  size_documents : builder.documents.size ≤ after.documents.size
  size_importScopes : builder.importScopes.size ≤ after.importScopes.size
  known : ∀ (path : String) (rid : UInt32), after.documentRows[path]? = some rid →
    builder.documentRows[path]? = some rid ∨ rid.toNat ≤ after.documents.size
  documentRow : ∀ rid, event.documentRow? = some rid →
    ∃ path : String, after.documentRows[path]? = some rid
  importRow : ∀ rid, event.importRow? = some rid → rid.toNat ≤ after.importScopes.size
  documents : ∀ row ∈ after.documents, row ∈ builder.documents ∨
    ∃ document, row.Describes after.heaps.blobs.data after.heaps.guids.data document
  importScopes : ∀ row ∈ after.importScopes, row ∈ builder.importScopes ∨
    ∃ names, row.Imports after.heaps.blobs.data names
  parent : ∀ info, event.info? = some info → event.parent? = some info.1 ∨
    info.1.table = .document ∧ info.1.row.toNat ≤ after.documents.size

theorem Backs.tells (hbacks : builder.Backs events) (htells : builder.Tells event after) :
    after.Backs (events ++ [event]) := by
  have hextends := htells.heaps.extends hbacks.heaps
  have hknown : ∀ (path : String) (rid : UInt32), after.documentRows[path]? = some rid →
      rid.toNat ≤ after.documents.size := by
    intro path rid hfound
    rcases htells.known path rid hfound with hold | hle
    · exact (hbacks.known path rid hold).trans htells.size_documents
    · exact hle
  have hlast {α : Type} (f : Event → Option α) (a : α) :
      a ∈ (events ++ [event]).filterMap f ↔ a ∈ events.filterMap f ∨ f event = some a := by
    simp [List.filterMap_append]
  exact {
    heaps := htells.heaps.isLookup hbacks.heaps
    known := hknown
    documentRows := by
      intro rid hrid
      rcases (hlast _ rid).mp hrid with hold | hnew
      · exact (hbacks.documentRows rid hold).trans htells.size_documents
      · obtain ⟨path, hfound⟩ := htells.documentRow rid hnew
        exact hknown path rid hfound
    importRows := by
      intro rid hrid
      rcases (hlast _ rid).mp hrid with hold | hnew
      · exact (hbacks.importRows rid hold).trans htells.size_importScopes
      · exact htells.importRow rid hnew
    documents := by
      intro row hrow
      rcases htells.documents row hrow with hold | hnew
      · obtain ⟨document, hdescribes⟩ := hbacks.documents row hold
        exact ⟨document, hextends.describes hdescribes⟩
      · exact hnew
    importScopes := by
      intro row hrow
      rcases htells.importScopes row hrow with hold | hnew
      · obtain ⟨names, himports⟩ := hbacks.importScopes row hold
        exact ⟨names, hextends.imports himports⟩
      · exact hnew
    parents := by
      intro info hinfo
      rw [hlast]
      rcases (hlast _ info).mp hinfo with hold | hnew
      · obtain hgiven | ⟨htable, hle⟩ := hbacks.parents info hold
        · exact .inl (.inl hgiven)
        · exact .inr ⟨htable, hle.trans htells.size_documents⟩
      · exact (htells.parent info hnew).imp_left .inr }

/-- An operation that adds neither documents nor scopes of imports tells what is there. -/
theorem tells_of_kept (hgrows : builder.heaps.GrowsTo after.heaps)
    (hdocuments : after.documents = builder.documents)
    (hknown : after.documentRows = builder.documentRows)
    (himports : after.importScopes = builder.importScopes)
    (hrow : ∀ rid, event.documentRow? = some rid →
      ∃ path : String, builder.documentRows[path]? = some rid)
    (himportRow : event.importRow? = none)
    (hparent : ∀ info, event.info? = some info → event.parent? = some info.1) :
    builder.Tells event after where
  heaps := hgrows
  size_documents := (congrArg Array.size hdocuments).ge
  size_importScopes := (congrArg Array.size himports).ge
  known path rid hfound := .inl (hknown ▸ hfound)
  documentRow rid hrid := hknown ▸ hrow rid hrid
  importRow rid hrid := by
    rw [himportRow] at hrid
    cases hrid
  documents row hmem := .inl (hdocuments ▸ hmem)
  importScopes row hmem := .inl (himports ▸ hmem)
  parent info hinfo := .inl (hparent info hinfo)

theorem tells_of_silent (hgrows : builder.heaps.GrowsTo after.heaps)
    (hdocuments : after.documents = builder.documents)
    (hknown : after.documentRows = builder.documentRows)
    (himports : after.importScopes = builder.importScopes) (hrow : event.documentRow? = none)
    (himportRow : event.importRow? = none) (hinfo : event.info? = none) :
    builder.Tells event after := by
  refine tells_of_kept hgrows hdocuments hknown himports ?_ himportRow ?_
  · intro rid hrid
    rw [hrow] at hrid
    cases hrid
  · intro info hsome
    rw [hinfo] at hsome
    cases hsome

theorem tells_addDocument {document : SourceDocument} {rid : UInt32}
    (hrun : (addDocument document).run builder = .ok rid after) (hsound : builder.heaps.IsSound)
    (hgrows : builder.heaps.GrowsTo after.heaps) :
    builder.Tells ⟨.addDocument document, .ok (.row rid)⟩ after := by
  obtain ⟨heaps, row, record, _, hnext, rfl, hdescribes, _, rfl⟩ := run_addDocument hrun hsound
  have hrid := (nextRow_eq_ok hnext).1
  have hle : row.rid.toNat ≤ (builder.documents.push row).size := by
    rw [Array.size_push, hrid]
  exact {
    heaps := hgrows
    size_documents := by simp
    size_importScopes := Nat.le_refl _
    known := by
      intro path rid hfound
      rw [Std.HashMap.getElem?_insert] at hfound
      split at hfound
      · cases hfound
        exact .inr hle
      · exact .inl hfound
    documentRow := by
      rintro _ ⟨⟩
      exact ⟨document.path, Std.HashMap.getElem?_insert_self⟩
    importRow := nofun
    documents := by
      intro other hother
      rcases Array.mem_push.mp hother with hold | rfl
      · exact .inl hold
      · exact .inr ⟨document, hdescribes⟩
    importScopes := fun _ hrow => .inl hrow
    parent := by
      rintro _ ⟨⟩
      exact .inr ⟨rfl, hle⟩ }

theorem tells_addImportScope {parent rid : UInt32} {names : NameSet}
    (hrun : (addImportScope parent names).run builder = .ok rid after)
    (hsound : builder.heaps.IsSound) (hgrows : builder.heaps.GrowsTo after.heaps) :
    builder.Tells ⟨.addImportScope parent names, .ok (.row rid)⟩ after := by
  obtain ⟨_, heaps, row, _, hnext, rfl, _, himports, rfl⟩ := run_addImportScope hrun hsound
  exact {
    heaps := hgrows
    size_documents := Nat.le_refl _
    size_importScopes := by simp
    known := fun _ _ hfound => .inl hfound
    documentRow := nofun
    importRow := by
      rintro _ ⟨⟩
      rw [Array.size_push, (nextRow_eq_ok hnext).1]
    documents := fun _ hrow => .inl hrow
    importScopes := by
      intro other hother
      rcases Array.mem_push.mp hother with hold | rfl
      · exact .inl hold
      · exact .inr ⟨_, himports⟩
    parent := nofun }

/-- An operation that failed told nothing, and the document that it may have left is in the heaps.
-/
theorem tells_of_fails {operation : Operation} {error : Error}
    (hfails : builder.Fails error after) (hheaps : builder.heaps.IsLookup)
    (hgrows : builder.heaps.GrowsTo after.heaps) :
    builder.Tells ⟨operation, .error error⟩ after where
  heaps := hgrows
  size_documents := by
    obtain ⟨hsame, _⟩ | ⟨row, _, _, hmore, _⟩ := hfails.documents
    · rw [hsame]
    · rw [hmore, Array.size_push]
      exact Nat.le_succ _
  size_importScopes := (congrArg Array.size hfails.importScopes).ge
  known := by
    intro path rid hfound
    obtain ⟨_, hsame⟩ | ⟨row, _, hnext, hmore, hinsert⟩ := hfails.documents
    · exact .inl (hsame ▸ hfound)
    · rw [hinsert, Std.HashMap.getElem?_insert] at hfound
      split at hfound
      · cases hfound
        rw [hmore, Array.size_push, (nextRow_eq_ok hnext).1]
        exact .inr (Nat.le_refl _)
      · exact .inl hfound
  documentRow rid hrid := by cases operation <;> cases hrid
  importRow rid hrid := by cases operation <;> cases hrid
  documents := by
    intro row hrow
    obtain hold | ⟨document, heaps, hrun, hlater⟩ := hfails.stays row hrow
    · exact .inl hold
    · obtain ⟨_, _, hdescribes⟩ := run_documentRow hrun hheaps.isSound
      have hlookup := ((confined_documentRow document row.rid).moves_of_ok hrun).isLookup hheaps
      exact .inr ⟨document, (hlater.extends hlookup).describes hdescribes⟩
  importScopes row hrow := .inl (hfails.importScopes ▸ hrow)
  parent info hinfo := by cases operation <;> cases hinfo

/-- What an operation tells is there afterwards. -/
theorem Backs.step (hbacks : builder.Backs events) (operation : Operation) :
    (operation.step builder).2.Backs (events ++ [(operation.step builder).1]) := by
  have hgrows := operation.growsTo_step builder
  have hsound := hbacks.heaps.isSound
  unfold Operation.step at *
  cases hrun : operation.run.run builder with
  | error error after =>
    simp only [hrun] at hgrows ⊢
    exact hbacks.tells (tells_of_fails (operation.fails hrun) hbacks.heaps hgrows)
  | ok answer after =>
    simp only [hrun] at hgrows ⊢
    apply hbacks.tells
    cases operation.succeeds hrun hsound with
    | addDocument hadd => exact tells_addDocument hadd hsound hgrows
    | addImportScope hadd => exact tells_addImportScope hadd hsound hgrows
    | documentRow path =>
      exact tells_of_kept hgrows rfl rfl rfl (fun _ hrid => ⟨path, hrid⟩) rfl nofun
    | addMethod hadd =>
      obtain ⟨_, _, _, hnew⟩ := run_addMethod hadd hsound
      obtain ⟨_, _, _, _, _, rfl⟩ := hnew rfl
      exact tells_of_silent hgrows rfl rfl rfl rfl rfl rfl
    | addLocalScope hadd =>
      obtain ⟨_, _, _, hnew⟩ := run_addLocalScope hadd
      obtain ⟨_, _, _, rfl⟩ := hnew rfl
      exact tells_of_silent hgrows rfl rfl rfl rfl rfl rfl
    | addStateMachine hadd =>
      obtain rfl := run_addStateMachine hadd
      exact tells_of_silent hgrows rfl rfl rfl rfl rfl rfl
    | addCustomInfo hadd =>
      obtain ⟨_, _, _, _, _, rfl⟩ := run_addCustomInfo hadd hsound
      refine tells_of_kept hgrows rfl rfl rfl nofun rfl ?_
      rintro _ ⟨⟩
      rfl
    | importScopeCount | hasMethod | knownMethod | knownLocalScope =>
      exact tells_of_silent hgrows rfl rfl rfl rfl rfl rfl

/-- The rows that a history was told are there in the builder that it leads to. -/
theorem backs_ofOperations (operations : List Operation) :
    (ofOperations operations).Backs (history operations) := by
  apply history_induction (motive := fun events builder => builder.Backs events)
  · exact backs_empty
  · intro events builder operation hbacks
    exact hbacks.step operation

end PortablePdb.DebugBuilder
