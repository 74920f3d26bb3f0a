import PortablePdb.Proofs.Generation

namespace PortablePdb

open BlobHeap GuidHeap

/-- One more element with a key that is there adds no key. -/
theorem any_concat_of_any {α κ : Type} [BEq κ] [LawfulBEq κ] {key : α → κ} {before : List α}
    {last : α} (hknown : before.any (fun x => key x == key last) = true) (wanted : κ) :
    (before ++ [last]).any (fun x => key x == wanted) =
      before.any (fun x => key x == wanted) := by
  rw [List.any_append, List.any_cons, List.any_nil, Bool.or_false]
  by_cases hsame : key last = wanted
  · rw [← hsame, hknown, Bool.true_or]
  · rw [beq_eq_false_iff_ne.mpr hsame, Bool.or_false]

/-- One more element with a key that is there does not change which one is the first. -/
theorem find?_concat_of_any {α κ : Type} [BEq κ] [LawfulBEq κ] {key : α → κ} {before : List α}
    {last : α} (hknown : before.any (fun x => key x == key last) = true) (wanted : κ) :
    (before ++ [last]).find? (fun x => key x == wanted) =
      before.find? (fun x => key x == wanted) := by
  rw [List.find?_append]
  by_cases hsame : key last = wanted
  · rw [hsame, ← List.isSome_find?] at hknown
    obtain ⟨first, hfirst⟩ := Option.isSome_iff_exists.mp hknown
    rw [hfirst, Option.some_or]
  · rw [List.find?_cons_of_neg (by simpa using hsame), List.find?_nil, Option.or_none]

/-- An element with a new key is the first one with this key, and changes no other. -/
theorem find?_concat_of_not_any {α κ : Type} [BEq κ] [LawfulBEq κ] [DecidableEq κ] {key : α → κ}
    {before : List α} {last : α} (hnew : before.any (fun x => key x == key last) = false)
    (wanted : κ) : (before ++ [last]).find? (fun x => key x == wanted) =
      if key last = wanted then some last else before.find? (fun x => key x == wanted) := by
  rw [List.find?_append]
  split
  · next hsame =>
    rw [hsame, List.any_eq_false] at hnew
    rw [List.find?_eq_none.mpr hnew, Option.none_or]
    exact List.find?_cons_of_pos (by simpa using hsame)
  · next hsame =>
    rw [List.find?_cons_of_neg (by simpa using hsame), List.find?_nil, Option.or_none]

/-- Where the elements of a list with some key are related to the first element of another one that
has the key, elements with a new key may go behind both lists. -/
theorem forall₂_filter_concat {α β κ : Type} [BEq κ] [LawfulBEq κ] [DecidableEq κ]
    {R : α → β → Prop} {keyOf : α → κ} {key : β → κ} {entries : List α} {before : List β}
    {entry : α} {last : β} (hbefore : ∀ wanted, List.Forall₂ R
      (entries.filter (keyOf · == wanted)) (before.find? (key · == wanted)).toList)
    (hnew : before.any (fun x => key x == key last) = false) (hkey : keyOf entry = key last)
    (hlast : R entry last) (wanted : κ) : List.Forall₂ R
      ((entries ++ [entry]).filter (keyOf · == wanted))
      ((before ++ [last]).find? (key · == wanted)).toList := by
  rw [List.filter_append, find?_concat_of_not_any hnew]
  split
  · next hsame =>
    -- There was no element of this key before, and now the new ones are the only ones.
    subst hsame
    have hnone := hbefore (key last)
    rw [List.find?_eq_none.mpr (by simpa using hnew)] at hnone
    rw [List.forall₂_nil_right_iff.mp hnone, List.filter_cons_of_pos (by simp [hkey])]
    exact .cons hlast .nil
  · next hdiffers =>
    rw [List.filter_cons_of_neg (by simpa [hkey] using hdiffers), List.filter_nil, List.append_nil]
    exact hbefore wanted

/-- What a function of a source file submits. -/
structure Submission where
  path : String
  entry : MethodRecords
  deriving DecidableEq

namespace Submission

variable {before : List Submission} {submission : Submission}

/-- The submissions of a file, function by function. -/
def ofOutcome (outcome : FileOutcome) : List Submission :=
  (outcome.records.elim [] (·.methods)).map (⟨outcome.path, ·⟩)

theorem isOwn_of_mem {outcome : FileOutcome} (hown : outcome.IsOwn)
    (hmem : submission ∈ ofOutcome outcome) : submission.entry.IsOwn := by
  obtain ⟨entry, hentry, rfl⟩ := List.mem_map.mp hmem
  cases hrecords : outcome.records with
  | none => simp [hrecords] at hentry
  | some file =>
    rw [hrecords] at hentry
    exact hown.methods file hrecords entry hentry

/-- Whether a submission is for the method in a row. -/
def isFor (row : UInt32) (submission : Submission) : Bool :=
  submission.entry.method.row == row

/-- The diagnostic about a submission that is not the first one for its method. -/
def duplicate (submission : Submission) : Diagnostic :=
  FileRecords.duplicate submission.path submission.entry

/-- The diagnostics about submissions that come after others. -/
def duplicates : (before : List Submission) → List Submission → List Diagnostic
  | _, [] => []
  | before, submission :: rest =>
    if before.any (isFor submission.entry.method.row) then
      submission.duplicate :: duplicates (before ++ [submission]) rest
    else duplicates (before ++ [submission]) rest

theorem duplicates_append (before first second : List Submission) :
    duplicates before (first ++ second) =
      duplicates before first ++ duplicates (before ++ first) second := by
  induction first generalizing before with
  | nil => simp [duplicates]
  | cons submission first ih =>
    rw [List.cons_append, duplicates, duplicates, ih, List.append_assoc, List.singleton_append]
    split <;> rfl

theorem ofCategory_duplicates (before rest : List Submission) :
    Diagnostics.ofCategory .duplicateMethod (duplicates before rest) = duplicates before rest := by
  induction rest generalizing before with
  | nil => rfl
  | cons submission rest ih =>
    rw [duplicates]
    split
    · exact congrArg (submission.duplicate :: ·) (ih _)
    · exact ih _

/-- For one method, all submissions but the first are reported. -/
theorem filter_duplicates {method : Token} (hmethod : method.isTable .methodDef = true)
    (before : List Submission) {rest : List Submission}
    (hown : ∀ submission ∈ rest, submission.entry.method.isTable .methodDef = true) :
    (duplicates before rest).filter (·.token == some method) =
      if before.any (isFor method.row) then (rest.filter (isFor method.row)).map duplicate
      else (rest.filter (isFor method.row)).tail.map duplicate := by
  induction rest generalizing before with
  | nil => simp [duplicates]
  | cons submission rest ih =>
    have htoken : (submission.duplicate.token == some method) = isFor method.row submission :=
      Token.beq_eq_beq_row (hown submission List.mem_cons_self) hmethod
    have hrest := ih (before ++ [submission]) fun other hother =>
      hown other (List.mem_cons_of_mem _ hother)
    have hany : (before ++ [submission]).any (isFor method.row) =
        (before.any (isFor method.row) || isFor method.row submission) := by
      simp
    by_cases hfor : isFor method.row submission = true
    · have hrow : submission.entry.method.row = method.row := by simpa [isFor] using hfor
      rw [duplicates, hrow, List.filter_cons_of_pos hfor]
      rw [hfor, Bool.or_true] at hany
      by_cases hbefore : before.any (isFor method.row) = true
      · rw [if_pos hbefore, if_pos hbefore]
        simp only [List.filter_cons, htoken, hfor, if_true, hrest, hany, List.map_cons]
      · rw [if_neg hbefore, if_neg hbefore, hrest, hany]
        rfl
    · rw [List.filter_cons_of_neg hfor, duplicates]
      have hsame : (before ++ [submission]).any (isFor method.row) =
          before.any (isFor method.row) := by
        rw [hany, Bool.eq_false_iff.mpr hfor, Bool.or_false]
      split
      · simp only [List.filter_cons, htoken, hfor, hrest, hsame, Bool.false_eq_true, if_false]
      · rw [hrest, hsame]

/-- Another submission for a method does not change which one is the first. -/
theorem find?_append_of_any (hknown : before.any (isFor submission.entry.method.row) = true)
    (row : UInt32) : (before ++ [submission]).find? (isFor row) = before.find? (isFor row) :=
  find?_concat_of_any hknown row

/-- A submission for a new method is the first one for this method, and changes no other. -/
theorem find?_append_of_not_any (hnew : before.any (isFor submission.entry.method.row) = false)
    (row : UInt32) :
    (before ++ [submission]).find? (isFor row) =
      if submission.entry.method.row = row then some submission else before.find? (isFor row) :=
  find?_concat_of_not_any hnew row

end Submission

/-- Of elements with one key, a filter for a key keeps all or none. -/
theorem filter_eq_ite {α κ : Type} [DecidableEq κ] {xs : List α} {key : α → κ} {own : κ}
    (hown : ∀ x ∈ xs, key x = own) (wanted : κ) :
    xs.filter (fun x => key x == wanted) = if own = wanted then xs else [] := by
  by_cases hsame : own = wanted
  · rw [if_pos hsame, List.filter_eq_self]
    intro x hx
    simp [hown x hx, hsame]
  · rw [if_neg hsame, List.filter_eq_nil_iff]
    intro x hx
    simp [hown x hx, hsame]

namespace DebugBuilder

variable {builder after : DebugBuilder} {submissions : List Submission}

/-- A number is that of the document with a path. -/
def NamesDocument (builder : DebugBuilder) (number : UInt32) (path : String) : Prop :=
  ∃ row document, number ≠ 0 ∧ builder.documents[number.toNat - 1]? = some row ∧
    row.rid = number ∧ document.path = path ∧
    row.Describes builder.heaps.blobs.data builder.heaps.guids.data document

/-- The entry of a method is what a submission asks for: its document and its points, or nothing if
it has no points. -/
def Records (builder : DebugBuilder) (submission : Submission) (entry : UInt32 × UInt32) : Prop :=
  match submission.entry.points with
  | some blob => builder.NamesDocument entry.1 submission.path ∧
      HasBlob builder.heaps.blobs.data entry.2 blob
  | none => entry = (0, 0)

/-- A builder that comes from another one has its documents and what its heaps hold. -/
structure Grows (after builder : DebugBuilder) : Prop where
  heaps : after.heaps.Extends builder.heaps
  documents : ∃ more, after.documents = builder.documents ++ more

theorem Grows.namesDocument (hgrows : after.Grows builder) {number : UInt32} {path : String}
    (hnames : builder.NamesDocument number path) : after.NamesDocument number path := by
  obtain ⟨row, document, hnumber, hrow, hrid, hpath, hdescribes⟩ := hnames
  obtain ⟨more, hmore⟩ := hgrows.documents
  refine ⟨row, document, hnumber, ?_, hrid, hpath, hgrows.heaps.describes hdescribes⟩
  obtain ⟨hlt, _⟩ := Array.getElem?_eq_some_iff.mp hrow
  rw [hmore, Array.getElem?_append_left hlt, hrow]

theorem Grows.records (hgrows : after.Grows builder) {submission : Submission}
    {entry : UInt32 × UInt32} (hrecords : builder.Records submission entry) :
    after.Records submission entry := by
  unfold Records at *
  split at hrecords
  · exact ⟨hgrows.namesDocument hrecords.1, hgrows.heaps.hasBlob hrecords.2⟩
  · exact hrecords

/-- The first submission for each method is kept, and no other one. -/
structure Keeps (builder : DebugBuilder) (submissions : List Submission) : Prop where
  heaps : builder.heaps.IsSound
  unknown : ∀ row, submissions.find? (Submission.isFor row) = none → builder.methods[row]? = none
  recorded : ∀ row submission, submissions.find? (Submission.isFor row) = some submission →
    ∃ entry, builder.methods[row]? = some entry ∧ builder.Records submission entry
  machines : ∀ row, builder.machines.toList.filter (·.1 == row) =
    (submissions.find? (Submission.isFor row)).elim [] (·.entry.records.machineRows)
  info : ∀ row, List.Forall₂ (StoresInfo builder.heaps.blobs.data builder.heaps.guids.data)
    (builder.customInfo.toList.filter (·.1 == ⟨.methodDef, row⟩))
    ((submissions.find? (Submission.isFor row)).elim [] (·.entry.records.infos))

theorem keeps_empty : Keeps empty [] where
  heaps := HeapBuilders.isSound_empty
  unknown row _ := by simp [empty]
  recorded row submission hfirst := by simp at hfirst
  machines row := by simp [empty]
  info row := by simp [empty]

/-- A method was submitted if there is a submission for it. -/
theorem Keeps.hasMethod_eq (hkeeps : builder.Keeps submissions) (method : Token) :
    builder.hasMethod method = submissions.any (Submission.isFor method.row) := by
  rw [hasMethod, ← Std.HashMap.isSome_getElem?_eq_contains, ← List.isSome_find?]
  cases hfirst : submissions.find? (Submission.isFor method.row) with
  | none =>
    rw [hkeeps.unknown method.row hfirst]
    rfl
  | some submission =>
    obtain ⟨entry, hentry, _⟩ := hkeeps.recorded method.row submission hfirst
    rw [hentry]
    rfl

/-- What is about a method comes from the first submission for it. -/
theorem Keeps.exists_first (hkeeps : builder.Keeps submissions)
    {record : CodedIndex × UInt32 × UInt32} (hrecord : record ∈ builder.customInfo)
    (htable : record.1.table = .methodDef) :
    ∃ submission, submissions.find? (Submission.isFor record.1.row) = some submission := by
  have hsame : record.1 = ⟨.methodDef, record.1.row⟩ := by
    rw [← htable]
  have hmem : record ∈ builder.customInfo.toList.filter
      (·.1 == ⟨.methodDef, record.1.row⟩) :=
    List.mem_filter.mpr ⟨Array.mem_toList_iff.mpr hrecord, beq_iff_eq.mpr hsame⟩
  obtain ⟨info, hinfo, _⟩ := exists_of_forall₂ (hkeeps.info record.1.row) hmem
  cases hfirst : submissions.find? (Submission.isFor record.1.row) with
  | none => simp [hfirst] at hinfo
  | some submission => exact ⟨submission, rfl⟩

/-- What adds no methods keeps what was submitted first. -/
theorem Keeps.grow (hkeeps : builder.Keeps submissions) (hgrows : after.Grows builder)
    (hmethods : after.methods = builder.methods) (hmachines : after.machines = builder.machines)
    (added : List (CodedIndex × UInt32 × UInt32))
    (hinfo : after.customInfo = builder.customInfo ++ added.toArray)
    (hadded : ∀ record ∈ added, record.1.table ≠ .methodDef) : after.Keeps submissions where
  heaps := hgrows.heaps.sound
  unknown row hfirst := by
    rw [hmethods]
    exact hkeeps.unknown row hfirst
  recorded row submission hfirst := by
    obtain ⟨entry, hentry, hrecords⟩ := hkeeps.recorded row submission hfirst
    exact ⟨entry, hmethods ▸ hentry, hgrows.records hrecords⟩
  machines row := by
    rw [hmachines]
    exact hkeeps.machines row
  info row := by
    have hnone : added.filter (·.1 == ⟨.methodDef, row⟩) = [] := by
      rw [List.filter_eq_nil_iff]
      intro record hrecord heq
      exact hadded record hrecord (congrArg CodedIndex.table (by simpa using heq))
    rw [hinfo, Array.toList_append, List.filter_append, hnone, List.append_nil]
    exact (hkeeps.info row).imp fun _ _ hstores => hgrows.heaps.storesInfo hstores

/-- A submission for a method that was submitted before changes nothing. -/
theorem Keeps.concat_of_any (hkeeps : builder.Keeps submissions) {submission : Submission}
    (hknown : submissions.any (Submission.isFor submission.entry.method.row) = true) :
    builder.Keeps (submissions ++ [submission]) := by
  have hfind := Submission.find?_append_of_any hknown
  exact {
    heaps := hkeeps.heaps
    unknown := by simpa only [hfind] using hkeeps.unknown
    recorded := by simpa only [hfind] using hkeeps.recorded
    machines := by simpa only [hfind] using hkeeps.machines
    info := by simpa only [hfind] using hkeeps.info }

/-- With the first submission for a method only the records of that method change. There were none
of them before, as nothing was submitted for it. -/
theorem Keeps.concat_of_not_any (hkeeps : builder.Keeps submissions) {submission : Submission}
    (hnew : submissions.any (Submission.isFor submission.entry.method.row) = false)
    (hown : submission.entry.IsOwn) (hgrows : after.Grows builder) {entry : UInt32 × UInt32}
    {added : List (CodedIndex × UInt32 × UInt32)}
    (hmethods : after.methods = builder.methods.insert submission.entry.method.row entry)
    (hmachines : after.machines =
      builder.machines ++ submission.entry.records.machineRows.toArray)
    (hinfo : after.customInfo = builder.customInfo ++ added.toArray)
    (hentry : after.Records submission entry)
    (hadded : List.Forall₂ (StoresInfo after.heaps.blobs.data after.heaps.guids.data) added
      submission.entry.records.infos) : after.Keeps (submissions ++ [submission]) := by
  have hfind := Submission.find?_append_of_not_any hnew
  have hnone : submissions.find? (Submission.isFor submission.entry.method.row) = none := by
    rwa [← Option.isNone_iff_eq_none, ← Option.not_isSome, List.isSome_find?, Bool.not_eq_true']
  have hadds : ∀ record ∈ added, record.1 = ⟨.methodDef, submission.entry.method.row⟩ := by
    intro record hrecord
    obtain ⟨info, hmem, hstores⟩ := exists_of_forall₂ hadded hrecord
    rw [hstores.parent, hown.infos info hmem]
  exact {
    heaps := hgrows.heaps.sound
    unknown := by
      intro row hfirst
      rw [hfind] at hfirst
      split at hfirst
      · cases hfirst
      · next hdiffers =>
        rw [hmethods, Std.HashMap.getElem?_insert, if_neg (by simpa using hdiffers)]
        exact hkeeps.unknown row hfirst
    recorded := by
      intro row first hfirst
      rw [hfind] at hfirst
      split at hfirst
      · next hsame =>
        cases hfirst
        exact ⟨entry, by rw [hmethods, ← hsame, Std.HashMap.getElem?_insert_self], hentry⟩
      · next hdiffers =>
        obtain ⟨found, hfound, hrecords⟩ := hkeeps.recorded row first hfirst
        refine ⟨found, ?_, hgrows.records hrecords⟩
        rw [hmethods, Std.HashMap.getElem?_insert, if_neg (by simpa using hdiffers), hfound]
    machines := by
      intro row
      rw [hmachines, Array.toList_append, List.filter_append, hkeeps.machines row, hfind,
        List.toList_toArray, filter_eq_ite hown.machineRows]
      split
      · next hsame =>
        rw [← hsame, hnone]
        rfl
      · exact List.append_nil _
    info := by
      intro row
      have hold := (hkeeps.info row).imp fun _ _ hstores => hgrows.heaps.storesInfo hstores
      have hnew := filter_eq_ite hadds ⟨.methodDef, row⟩
      simp only [CodedIndex.mk.injEq, true_and] at hnew
      rw [hinfo, Array.toList_append, List.filter_append, List.toList_toArray, hnew, hfind]
      split
      · next hsame =>
        rw [← hsame, hnone] at hold
        rw [← hsame, List.forall₂_nil_right_iff.mp hold]
        exact hadded
      · rw [List.append_nil]
        exact hold }

/-- A submission is kept if it is the first one for its method. -/
theorem Keeps.submits {document : UInt32} (hkeeps : builder.Keeps submissions)
    (submission : Submission) (hown : submission.entry.IsOwn)
    (hsubmits : FileRecords.Submits builder document submission.entry after)
    (hdocument : builder.NamesDocument document submission.path) :
    after.Keeps (submissions ++ [submission]) ∧ after.Grows builder := by
  cases hsubmits with
  | known hknown =>
    rw [hkeeps.hasMethod_eq] at hknown
    exact ⟨hkeeps.concat_of_any hknown, hkeeps.heaps.extends_self, #[], by simp⟩
  | @first heaps entry added hnew hheaps hpoints hempty hadded =>
    rw [hkeeps.hasMethod_eq] at hnew
    have hgrows : Grows { builder with
        heaps
        methods := builder.methods.insert submission.entry.method.row entry
        machines := builder.machines ++ submission.entry.records.machineRows.toArray
        customInfo := builder.customInfo ++ added.toArray } builder :=
      ⟨hheaps, #[], by simp⟩
    refine ⟨hkeeps.concat_of_not_any hnew hown hgrows rfl rfl rfl ?_ hadded, hgrows⟩
    unfold Records
    split
    · next blob hblob =>
      obtain ⟨hentry, hat⟩ := hpoints blob hblob
      exact ⟨hentry ▸ hgrows.namesDocument hdocument, hat⟩
    · next hblob => exact hempty hblob

/-- The functions of a file are submitted in their order. -/
theorem Keeps.addMethods {path : String} {document : UInt32} {entries : List MethodRecords}
    {diagnostics : List Diagnostic} (hkeeps : builder.Keeps submissions)
    (hrun : (FileRecords.addMethods path document entries).run builder = .ok diagnostics after)
    (hown : ∀ entry ∈ entries, entry.IsOwn) (hdocument : builder.NamesDocument document path) :
    after.Keeps (submissions ++ entries.map (⟨path, ·⟩)) ∧
      diagnostics = Submission.duplicates submissions (entries.map (⟨path, ·⟩)) := by
  induction entries generalizing builder submissions diagnostics with
  | nil =>
    obtain ⟨rfl, rfl⟩ := run_pure_eq_ok_iff.mp hrun
    simpa [Submission.duplicates] using hkeeps
  | cons entry entries ih =>
    obtain ⟨middle, rest, _, hsubmits, hrest, hdiagnostics⟩ :=
      FileRecords.run_addMethods_cons hrun hkeeps.heaps
    obtain ⟨hmiddle, hgrows⟩ := hkeeps.submits ⟨path, entry⟩
      (hown entry List.mem_cons_self) hsubmits hdocument
    obtain ⟨hafter, rfl⟩ := ih hmiddle hrest
      (fun other hother => hown other (List.mem_cons_of_mem _ hother))
      (hgrows.namesDocument hdocument)
    rw [List.append_assoc, List.singleton_append] at hafter
    refine ⟨hafter, ?_⟩
    rw [hdiagnostics, hkeeps.hasMethod_eq]
    rfl

/-- The functions of a file are submitted with the document of the file. -/
theorem Keeps.merge {path : String} {file : FileRecords} {diagnostics : List Diagnostic}
    (hkeeps : builder.Keeps submissions)
    (hrun : (FileRecords.merge path file).run builder = .ok diagnostics after)
    (hpath : file.document.path = path) (hown : ∀ entry ∈ file.methods, entry.IsOwn) :
    after.Keeps (submissions ++ file.methods.map (⟨path, ·⟩)) ∧
      diagnostics = Submission.duplicates submissions (file.methods.map (⟨path, ·⟩)) := by
  obtain ⟨document, first, hdocument, hrun⟩ := run_bind_eq_ok_iff.mp hrun
  obtain ⟨rows, second, hnamespaces, hrun⟩ := run_bind_eq_ok_iff.mp hrun
  obtain ⟨_, third, hscopes, hrun⟩ := run_bind_eq_ok_iff.mp hrun
  obtain ⟨heaps, row, record, hheaps, hnext, hrid, hdescribes, hrecord, rfl⟩ :=
    run_addDocument hdocument hkeeps.heaps
  obtain ⟨later, importScopes, hlater, _, rfl⟩ :=
    FileRecords.run_addNamespaces hnamespaces hheaps.sound
  obtain ⟨localScopes, scopeKeys, _, rfl⟩ := FileRecords.run_addMethodScopes hscopes
  obtain ⟨hcount, _⟩ := nextRow_eq_ok hnext
  have hgrown : Grows { builder with
      heaps := later, importScopes, localScopes, scopeKeys
      documents := builder.documents.push row
      documentRows := builder.documentRows.insert file.document.path document
      customInfo := builder.customInfo.push record } builder :=
    ⟨hlater.trans hheaps, #[row], by simp⟩
  refine (hkeeps.grow hgrown rfl rfl [record] (by simp) ?_).addMethods hrun hown ?_
  · intro other hother
    rw [List.mem_singleton.mp hother, hrecord.parent]
    nofun
  · refine ⟨row, file.document, ?_, ?_, hrid, hpath, hlater.describes hdescribes⟩
    · rintro rfl
      simp at hcount
    · rw [hcount]
      simp

/-- All functions are submitted file by file, and those that come too late are reported. -/
theorem Keeps.mergeAll {outcomes : List FileOutcome} {diagnostics : List Diagnostic}
    (hkeeps : builder.Keeps submissions)
    (hrun : (FileOutcome.mergeAll outcomes).run builder = .ok diagnostics after)
    (houtcomes : ∀ outcome ∈ outcomes, outcome.IsOwn) :
    after.Keeps (submissions ++ outcomes.flatMap Submission.ofOutcome) ∧
      Diagnostics.ofCategory .duplicateMethod diagnostics =
        Submission.duplicates submissions (outcomes.flatMap Submission.ofOutcome) := by
  induction outcomes generalizing builder submissions diagnostics with
  | nil =>
    obtain ⟨rfl, rfl⟩ := run_pure_eq_ok_iff.mp hrun
    simpa [Submission.duplicates, Diagnostics.ofCategory] using hkeeps
  | cons outcome outcomes ih =>
    have hfirst := houtcomes outcome List.mem_cons_self
    have hlater : ∀ other ∈ outcomes, other.IsOwn := fun other hother =>
      houtcomes other (List.mem_cons_of_mem _ hother)
    have hown : Diagnostics.ofCategory .duplicateMethod outcome.diagnostics = [] := by
      apply List.filter_eq_nil_iff.mpr
      intro diagnostic hdiagnostic
      simpa using hfirst.diagnostics diagnostic hdiagnostic
    obtain ⟨merged, middle, rest, hmerge, hrest, rfl⟩ := FileOutcome.run_mergeAll_cons hrun
    have hmiddle : middle.Keeps (submissions ++ Submission.ofOutcome outcome) ∧
        merged = Submission.duplicates submissions (Submission.ofOutcome outcome) := by
      unfold Submission.ofOutcome
      cases hrecords : outcome.records with
      | none =>
        rw [hrecords] at hmerge
        obtain ⟨rfl, rfl⟩ := run_pure_eq_ok_iff.mp hmerge
        simpa [Submission.duplicates] using hkeeps
      | some file =>
        rw [hrecords] at hmerge
        exact hkeeps.merge hmerge (hfirst.path file hrecords) (hfirst.methods file hrecords)
    obtain ⟨hkept, rfl⟩ := hmiddle
    obtain ⟨hafter, hduplicates⟩ := ih hkept hrest hlater
    rw [List.flatMap_cons, ← List.append_assoc]
    refine ⟨hafter, ?_⟩
    have happend (first second : List Diagnostic) :
        Diagnostics.ofCategory .duplicateMethod (first ++ second) =
          Diagnostics.ofCategory .duplicateMethod first ++
            Diagnostics.ofCategory .duplicateMethod second :=
      List.filter_append ..
    rw [happend, happend, hown, List.nil_append, Submission.ofCategory_duplicates, hduplicates,
      Submission.duplicates_append]

end DebugBuilder

end PortablePdb
