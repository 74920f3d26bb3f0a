import PortablePdb.Proofs.Generation
import PortablePdb.Proofs.Submissions

namespace PortablePdb

open BlobHeap GuidHeap

/-- What tables have about the method in a row is what was submitted for it first, or nothing at
all. -/
structure DebugTables.Has (tables : DebugTables) (row : UInt32) (first : Option Submission) :
    Prop where
  /-- Without points, the row of the method is empty. -/
  empty : first.bind (·.entry.points) = none → tables.methods[row.toNat - 1]? = some ⟨row, 0, 0⟩
  /-- Points come with the document of the file that they were submitted for. -/
  points : ∀ submission blob, first = some submission → submission.entry.points = some blob →
    ∃ (number index : UInt32) (documentRow : DocumentRow) (document : Document),
      tables.methods[row.toNat - 1]? = some ⟨row, number, index⟩ ∧
      blobAt tables.heaps.blobs index.toNat = .ok blob ∧
      number ≠ 0 ∧ tables.documents[number.toNat - 1]? = some documentRow ∧
      Container.documentOf tables.heaps documentRow = .ok document ∧
      document.row = number ∧ document.name = submission.path
  machines : (tables.stateMachines.toList.filter (·.moveNextMethod == row)).map
      (fun machine => (machine.moveNextMethod, machine.kickoffMethod)) =
    first.elim [] (·.entry.records.machineRows)
  customInfo : List.Forall₂ (fun record info => record.parent = info.1 ∧
      guidAt tables.heaps.guids record.kind.toNat = .ok info.2.1.guid ∧
      blobAt tables.heaps.blobs record.value.toNat = .ok info.2.2)
    (tables.customInfo.toList.filter (·.parent == ⟨.methodDef, row⟩))
    (first.elim [] (·.entry.records.infos))

namespace DebugBuilder

variable {builder : DebugBuilder} {count : UInt32} {tables : DebugTables}

/-- The row of a method has what was recorded for it. -/
theorem Finishes.method_eq (hfinishes : builder.Finishes count tables) {row : UInt32}
    (hpos : row ≠ 0) (hle : row ≤ count) :
    tables.methods[row.toNat - 1]? =
      some ⟨row, (builder.methods[row]?.getD (0, 0)).1, (builder.methods[row]?.getD (0, 0)).2⟩ := by
  have hnonzero : row.toNat ≠ 0 := by simpa [← UInt32.toNat_inj] using hpos
  have hlt : row.toNat - 1 < count.toNat := by
    have hnat := UInt32.le_iff_toNat_le.mp hle
    omega
  have hrow : (row.toNat - 1 + 1).toUInt32 = row := by
    rw [Nat.sub_add_cancel (by omega)]
    simp
  rw [hfinishes.methods, methodRows_getElem? builder hlt, hrow,
    Std.HashMap.getD_eq_getD_getElem?]

/-- State machines of one method keep their order. -/
theorem Finishes.filter_machines (hfinishes : builder.Finishes count tables) (row : UInt32) :
    (tables.stateMachines.toList.filter (·.moveNextMethod == row)).map
        (fun machine => (machine.moveNextMethod, machine.kickoffMethod)) =
      builder.machines.toList.filter (·.1 == row) := by
  have hsorted : (builder.machines.toList.mergeSort fun a b => a.1 ≤ b.1).filter (·.1 == row) =
      builder.machines.toList.filter (·.1 == row) := by
    apply filter_mergeSort
    · intro a b c hab hbc
      simp only [decide_eq_true_eq] at *
      exact UInt32.le_trans hab hbc
    · intro a b
      simpa using UInt32.le_total a.1 b.1
    · intro a _ b _ hsameA hsameB
      rw [beq_iff_eq.mp hsameA, beq_iff_eq.mp hsameB]
      simp
  rw [← hsorted, ← hfinishes.stateMachines, List.filter_map]
  rfl

/-- Finished tables have what their builder keeps. -/
theorem Keeps.has {submissions : List Submission} (hkeeps : builder.Keeps submissions)
    (hfinishes : builder.Finishes count tables) {row : UInt32} (hpos : row ≠ 0)
    (hle : row ≤ count) : tables.Has row (submissions.find? (Submission.isFor row)) := by
  have hpadded : Keeps { builder with heaps := builder.heaps.padded } submissions :=
    hkeeps.grow ⟨hkeeps.heaps.extends_padded, #[], by simp⟩ rfl rfl [] (by simp) nofun
  obtain ⟨hblobs, hguids⟩ := hfinishes.heaps_eq hkeeps.heaps
  have hmethod := hfinishes.method_eq hpos hle
  exact {
    empty := by
      intro hnone
      cases hfirst : submissions.find? (Submission.isFor row) with
      | none =>
        rw [hmethod, hkeeps.unknown row hfirst]
        rfl
      | some submission =>
        obtain ⟨entry, hentry, hrecords⟩ := hkeeps.recorded row submission hfirst
        rw [hfirst, Option.bind_some] at hnone
        rw [Records, hnone] at hrecords
        rw [hmethod, hentry, hrecords]
        rfl
    points := by
      intro submission blob hfirst hblob
      obtain ⟨entry, hentry, hrecords⟩ := hpadded.recorded row submission hfirst
      rw [Records, hblob] at hrecords
      obtain ⟨⟨documentRow, document, hnonzero, hdocument, hrid, hpath, hdescribes⟩, hat⟩ :=
        hrecords
      rw [hentry] at hmethod
      refine ⟨entry.1, entry.2, documentRow, _, hmethod, hblobs ▸ hat.blobAt_eq, hnonzero,
        hfinishes.documents ▸ hdocument, Container.documentOf_eq ?_, hrid, hpath⟩
      rw [hblobs, hguids]
      exact hdescribes
    machines := by
      rw [hfinishes.filter_machines, hkeeps.machines]
    customInfo := by
      have hsame := filter_sortInfo hfinishes.customInfo ⟨.methodDef, row⟩
      have hinfo := hpadded.info row
      rw [← hsame, List.filter_map, List.forall₂_map_left_iff] at hinfo
      rw [hblobs, hguids]
      exact hinfo.imp fun _ _ hstores =>
        ⟨hstores.parent, hstores.kind.guidAt_eq, hstores.value.blobAt_eq⟩ }

end DebugBuilder

namespace Generation

variable {module : Module} {decompiler : Decompiler} {options : GeneratorOptions}
  {compress : Bytes → Bytes} {newPool : PoolCreation} {generated : GeneratedContainer}

/-- What is submitted for a method: the functions whose code it holds, in the order of the files and
of the scopes in them. -/
def submissionsOf (module : Module) (decompiler : Decompiler) (options : GeneratorOptions)
    (compress : Bytes → Bytes) (method : Token) : List Submission :=
  (SourceFile.ofModule module decompiler options.nestedDirectories).flatMap fun source =>
    ((FileOutcome.accepted module decompiler options.banner source compress).filter
      (·.1.bodyMethod == method)).map fun (_, entry) => ⟨source.path, entry⟩

theorem submissionsOf_eq {method : Token} (hmethod : method.isTable .methodDef = true) :
    submissionsOf module decompiler options compress method =
      ((outcomesOf module decompiler options compress).flatMap Submission.ofOutcome).filter
        (Submission.isFor method.row) := by
  unfold submissionsOf outcomesOf
  rw [List.flatMap_map, List.filter_flatMap]
  congr 1
  funext source
  rw [Submission.ofOutcome, ← FileOutcome.map_accepted, List.map_map, List.filter_map,
    FileRecords.path_ofFile]
  congr 1
  apply List.filter_congr
  rintro ⟨function, entry⟩ hmem
  have haccepts := FileOutcome.accepts_of_mem_accepted hmem
  have hsame := Token.beq_eq_beq_row haccepts.isOwn.method hmethod
  rw [haccepts.method] at hsame
  rw [hsame, ← haccepts.method]
  rfl

/-- The tables of a container have what was submitted first for each method, and the report names
each further submission with its file. -/
theorem generate_keeps_first
    (hgenerated : generate module decompiler options compress newPool = .ok generated) :
    ∃ tables contentId, contentIdOf module options = .ok contentId ∧
      encodeWithId module tables contentId =
        .ok (generated.data, generated.report.contentId, generated.report.contentIdSource) ∧
      ∀ method : Token, method.isTable .methodDef = true → method.row ≤ module.methodCount →
        tables.Has method.row
          (submissionsOf module decompiler options compress method).head? ∧
        (Diagnostics.ofCategory .duplicateMethod generated.report.diagnostics).filter
            (·.token == some method) =
          (submissionsOf module decompiler options compress method).tail.map
            Submission.duplicate := by
  obtain ⟨builder, tables, diagnostics, hgenerates⟩ := exists_generates hgenerated
  obtain ⟨contentId, hcontentId, hencode⟩ := hgenerates.encode_eq
  have hfinishes := DebugBuilder.finishes_of_finish hgenerates.finish_eq
  obtain ⟨hkeeps, hduplicates⟩ := DebugBuilder.keeps_empty.mergeAll hgenerates.merge_eq
    fun _ => isOwn_of_mem_outcomesOf
  refine ⟨tables, contentId, hcontentId, hencode, ?_⟩
  intro method hmethod hle
  rw [submissionsOf_eq hmethod]
  constructor
  · rw [List.head?_filter]
    exact hkeeps.has hfinishes (Token.row_ne_zero hmethod) hle
  · obtain ⟨minted, hreport, hminted⟩ := hgenerates.diagnostics
    have hnone : Diagnostics.ofCategory .duplicateMethod minted = [] := by
      apply List.filter_eq_nil_iff.mpr
      intro diagnostic hdiagnostic
      simp [hminted diagnostic hdiagnostic]
    have hall : Diagnostics.ofCategory .duplicateMethod generated.report.diagnostics =
        Diagnostics.ofCategory .duplicateMethod diagnostics := by
      rw [hreport, Diagnostics.ofCategory, List.filter_append]
      exact congrArg (· ++ _) hnone
    have hmethods : ∀ submission ∈ (outcomesOf module decompiler options compress).flatMap
        Submission.ofOutcome, submission.entry.method.isTable .methodDef = true := by
      intro submission hsubmission
      obtain ⟨outcome, houtcome, hmem⟩ := List.mem_flatMap.mp hsubmission
      exact (Submission.isOwn_of_mem (isOwn_of_mem_outcomesOf houtcome) hmem).method
    rw [hall, hduplicates, Submission.filter_duplicates hmethod [] hmethods]
    rfl

theorem submissionsOf_sample :
    submissionsOf sampleModule sampleDecompiler sampleOptions Deflate.deflate (.methodDef 1) =
      [⟨"A.cs", ⟨.methodDef 1, some #[0, 0, 0, 0], {}⟩⟩, ⟨"A.cs", ⟨.methodDef 1, none, {}⟩⟩] := by
  rw [submissionsOf_eq rfl, outcomesOf_sample]
  decide

theorem generate_keeps_first_sample : ∃ generated tables contentId,
    generate sampleModule sampleDecompiler sampleOptions = .ok generated ∧
      encodeWithId sampleModule tables contentId =
        .ok (generated.data, generated.report.contentId, generated.report.contentIdSource) ∧
      tables.Has 1 (some ⟨"A.cs", ⟨.methodDef 1, some #[0, 0, 0, 0], {}⟩⟩) ∧
      (Diagnostics.ofCategory .duplicateMethod generated.report.diagnostics).filter
          (·.token == some (.methodDef 1)) =
        [Submission.duplicate ⟨"A.cs", ⟨.methodDef 1, none, {}⟩⟩] := by
  obtain ⟨generated, hgenerated, _⟩ := exists_generate_sample
  obtain ⟨tables, contentId, _, hencode, hmethods⟩ := generate_keeps_first hgenerated
  obtain ⟨hhas, hdiagnostics⟩ := hmethods (.methodDef 1) rfl (by decide)
  rw [submissionsOf_sample] at hhas hdiagnostics
  exact ⟨generated, tables, contentId, hgenerated, hencode, hhas, hdiagnostics⟩

end Generation

end PortablePdb
