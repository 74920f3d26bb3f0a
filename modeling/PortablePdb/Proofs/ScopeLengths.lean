import PortablePdb.Metadata.MethodBody
import PortablePdb.Proofs.PlacedScopes
import PortablePdb.Proofs.Resilience

namespace PortablePdb

namespace DebugBuilder

variable {builder : DebugBuilder} {records : List PlacedScope}

/-- Each scope of a method is recorded, or one with the same range is. -/
theorem PlacesScopes.exists_entry (hplaces : builder.PlacesScopes records) {record : PlacedScope}
    (hrecord : record ∈ records) :
    ∃ entry ∈ builder.localScopes.toList, entry.1.key = record.key := by
  have hhas : (records.find? (·.key == record.key)).isSome = true :=
    List.find?_isSome.mpr ⟨record, hrecord, beq_self_eq_true _⟩
  obtain ⟨first, hfirst⟩ := Option.isSome_iff_exists.mp hhas
  have hscopes := hplaces.scopes record.key
  rw [hfirst, Option.toList_some, List.map_singleton] at hscopes
  obtain ⟨entry, hentries, _⟩ := List.map_eq_singleton_iff.mp hscopes
  have hmem : entry ∈ builder.localScopes.toList.filter (·.1.key == record.key) :=
    hentries ▸ List.mem_singleton_self entry
  obtain ⟨hentry, hkey⟩ := List.mem_filter.mp hmem
  exact ⟨entry, hentry, eq_of_beq hkey⟩

/-- The finished table has the ranges of the recorded scopes, and no others. -/
theorem Finishes.exists_row_iff {count : UInt32} {tables : DebugTables}
    (hfinishes : builder.Finishes count tables) {key : UInt32 × UInt32 × UInt32} :
    (∃ row ∈ tables.localScopes, row.key = key) ↔
      ∃ entry ∈ builder.localScopes.toList, entry.1.key = key := by
  have hrows := hfinishes.lays.numbersScopes.records
  constructor
  · rintro ⟨row, hrow, rfl⟩
    obtain ⟨entry, hentry, hbecomes⟩ := exists_of_forall₂ hrows (Array.mem_toList_iff.mpr hrow)
    exact ⟨entry, (List.mergeSort_perm _ _).mem_iff.mp hentry, by rw [hbecomes]; rfl⟩
  · rintro ⟨entry, hentry, rfl⟩
    obtain ⟨row, hrow, hbecomes⟩ :=
      exists_of_forall₂ hrows.flip ((List.mergeSort_perm _ _).mem_iff.mpr hentry)
    exact ⟨row, Array.mem_toList_iff.mp hrow, by rw [hbecomes]; rfl⟩

/-- The ranges in the finished table are those of the scopes of methods. -/
theorem PlacesScopes.exists_row_iff (hplaces : builder.PlacesScopes records) {count : UInt32}
    {tables : DebugTables} (hfinishes : builder.Finishes count tables)
    {key : UInt32 × UInt32 × UInt32} :
    (∃ row ∈ tables.localScopes, row.key = key) ↔ ∃ record ∈ records, record.key = key := by
  rw [hfinishes.exists_row_iff]
  constructor
  · rintro ⟨entry, hentry, rfl⟩
    exact hplaces.exists_record hentry
  · rintro ⟨record, hrecord, rfl⟩
    exact hplaces.exists_entry hrecord

end DebugBuilder

namespace Generation

variable {module : Module} {decompiler : Decompiler} {options : GeneratorOptions}
  {compress : Bytes → Bytes} {newPool : PoolCreation} {generated : GeneratedContainer}

namespace Generates

variable {builder : DebugBuilder} {tables : DebugTables} {diagnostics : List Diagnostic}
  (hgenerates : Generates module decompiler options compress generated builder tables diagnostics)

include hgenerates

theorem placesScopes : builder.PlacesScopes (placedScopesOf module decompiler options compress) :=
  (DebugBuilder.PlacesFiles.mergeAll hgenerates.merge_eq).places

/-- Each row of scopes spans the whole code of a method that is reached. -/
theorem exists_code_of_row {row : LocalScopeRow} (hrow : row ∈ tables.localScopes) :
    ∃ method code, method.isTable .methodDef = true ∧ row.method = method.row ∧
      Reaches module decompiler options compress method ∧
      (module.method? method).bind (·.code) = some code ∧
      row.startOffset = 0 ∧ row.length = code.size := by
  have hplaces := hgenerates.placesScopes
  obtain ⟨placed, hplaced, hkey⟩ :=
    (hplaces.exists_row_iff hgenerates.finishes).mp ⟨row, hrow, rfl⟩
  obtain ⟨⟨code, hcode⟩, hreaches⟩ := exists_placed_of_method_iff.mp ⟨placed, hplaced, rfl⟩
  obtain ⟨hmethod, hrange⟩ := Prod.mk.inj hkey
  obtain ⟨hstart, hlength⟩ := Prod.mk.inj hrange
  exact ⟨placed.scope.method, code, hplaces.methods placed hplaced, hmethod.symm, hreaches, hcode,
    hstart.symm, hlength.symm.trans (length_of_placed hplaced hcode)⟩

/-- A method with code that is reached has a row that is as long as its code. -/
theorem exists_row_of_reaches {method : Token} {code : MethodCode}
    (hcode : (module.method? method).bind (·.code) = some code)
    (hreaches : Reaches module decompiler options compress method) :
    ∃ row ∈ tables.localScopes, row.key = (method.row, 0, code.size) := by
  obtain ⟨placed, hplaced, rfl⟩ := exists_placed_of_method_iff.mpr ⟨⟨code, hcode⟩, hreaches⟩
  refine (hgenerates.placesScopes.exists_row_iff hgenerates.finishes).mpr ⟨placed, hplaced, ?_⟩
  rw [PlacedScope.key, length_of_placed hplaced hcode]

/-- The scopes of the container have the ranges of the rows. -/
theorem map_range_localScopes {container : Container}
    (hread : Container.ofBytes generated.data = .ok container) :
    container.localScopes.toList.map (fun scope =>
        (scope.method, scope.startOffset, scope.length)) =
      tables.localScopes.toList.map fun row =>
        (.methodDef row.method, row.startOffset, row.length) := by
  have hscopes := (hgenerates.lists hread).localScopes
  rw [← List.forall₂_eq_eq_eq, List.forall₂_map_left_iff, List.forall₂_map_right_iff]
  refine hscopes.flip.imp ?_
  rintro scope row ⟨slots, rfl⟩
  rfl

end Generates

/-- Each scope of a container spans the code of a method that is reached, and is as long as the
header of the method says that the code is. So no scope is empty just if no method is reached that
has a header and no code. -/
theorem generate_scope_lengths
    (hgenerated : generate module decompiler options compress newPool = .ok generated) :
    ∃ tables contentId, contentIdOf module options = .ok contentId ∧
      encodeWithId module tables contentId =
        .ok (generated.data, generated.report.contentId, generated.report.contentIdSource) ∧
      (∀ row ∈ tables.localScopes, ∃ method code, method.isTable .methodDef = true ∧
        row.method = method.row ∧ Reaches module decompiler options compress method ∧
        (module.method? method).bind (·.code) = some code ∧
        row.startOffset = 0 ∧ row.length = code.size) ∧
      ((∀ row ∈ tables.localScopes, row.length ≠ 0) ↔
        ∀ method code, (module.method? method).bind (·.code) = some code →
          Reaches module decompiler options compress method → code.size ≠ 0) ∧
      ∀ container, Container.ofBytes generated.data = .ok container →
        container.localScopes.toList.map (fun scope =>
            (scope.method, scope.startOffset, scope.length)) =
          tables.localScopes.toList.map fun row =>
            (.methodDef row.method, row.startOffset, row.length) := by
  obtain ⟨builder, tables, diagnostics, hgenerates⟩ := exists_generates hgenerated
  obtain ⟨contentId, hcontentId, hencode⟩ := hgenerates.encode_eq
  refine ⟨tables, contentId, hcontentId, hencode, fun row => hgenerates.exists_code_of_row, ?_,
    fun container => hgenerates.map_range_localScopes⟩
  constructor
  · intro hlengths method code hcode hreaches
    obtain ⟨row, hrow, hkey⟩ := hgenerates.exists_row_of_reaches hcode hreaches
    have hlength : row.length = code.size := congrArg (·.2.2) hkey
    exact hlength ▸ hlengths row hrow
  · intro hcodes row hrow
    obtain ⟨method, code, _, _, hreaches, hcode, _, hlength⟩ := hgenerates.exists_code_of_row hrow
    exact hlength ▸ hcodes method code hcode hreaches

/-- A module with a method that has no code. -/
def emptyMethodModule : Module :=
  (((Module.named "A").addType "" "A").1.addMethod (.typeDef 2) "M" (some ⟨0, 0⟩)).1

/-- The decompiler finds a function of the method, and no points in it. -/
def emptyMethodDecompiler : Decompiler where
  decompile _ := .ok {
    syntaxTrees := [⟨.method, some 1, []⟩]
    functions := [{ id := 1, method := .methodDef 1 }]
    points := .points (.ofList []) }
  isHidden := (· == .typeDef 1)

/-- The records of the file: the scope of the method has no length. -/
def emptyMethodRecords : FileRecords where
  document := sampleRecords.document
  scopes := { methods := #[⟨.methodDef 1, 0, 0⟩], functions := #[1] }
  methods := [⟨.methodDef 1, none, {}⟩]

theorem outcomesOf_emptyMethod :
    outcomesOf emptyMethodModule emptyMethodDecompiler sampleOptions Deflate.deflate =
      [{ path := "A.cs", records := some emptyMethodRecords }] := by
  have hfiles : SourceFile.ofModule emptyMethodModule emptyMethodDecompiler true =
      [⟨"A.cs", [.typeDef 2]⟩] := by decide
  exact outcomesOf_of_records hfiles (by decide +kernel)

theorem isWithin_emptyMethod :
    IsWithin emptyMethodModule emptyMethodDecompiler sampleOptions Deflate.deflate := by
  obtain ⟨blobs, guids, hdocument, hblobs, _⟩ := exists_addDocument_sample
  have hroom : blobs.size < 0x20000000 := by
    rw [BlobHeap.Builder.size, hblobs.data_eq]
    decide
  refine isWithin_of_method (by decide) outcomesOf_emptyMethod hdocument rfl rfl rfl rfl
    rfl rfl rfl ?_
  constructor <;> simp [documentedBuilder, DebugBuilder.empty, hroom]

theorem exists_generate_emptyMethod : ∃ generated,
    generate emptyMethodModule emptyMethodDecompiler sampleOptions = .ok generated ∧
      generated.data.size < 0x100000000 := by
  have hcounted : emptyMethodModule.IsCounted :=
    ((Module.IsCounted.named "A").addType "" "A").addMethod (by decide) (.typeDef 2) "M"
      (some ⟨0, 0⟩)
  exact isWithin_emptyMethod.exists_generate hcounted rfl (by simp [sampleOptions])

theorem reaches_emptyMethod :
    (emptyMethodModule.method? (.methodDef 1)).bind (·.code) = some ⟨0, 0⟩ ∧
      Reaches emptyMethodModule emptyMethodDecompiler sampleOptions Deflate.deflate
        (.methodDef 1) := by
  have hplaced : placedScopesOf emptyMethodModule emptyMethodDecompiler sampleOptions
      Deflate.deflate = [⟨⟨.methodDef 1, 0, 0⟩, 1⟩] := by
    rw [placedScopesOf, mergedScopesOf, outcomesOf_emptyMethod]
    rfl
  exact ⟨rfl, (exists_placed_of_method_iff.mp
    ⟨⟨⟨.methodDef 1, 0, 0⟩, 1⟩, hplaced ▸ List.mem_cons_self, rfl⟩).2⟩

/-- The row of a method without code has no length. -/
theorem generate_scope_lengths_emptyMethod : ∃ generated tables contentId,
    generate emptyMethodModule emptyMethodDecompiler sampleOptions = .ok generated ∧
      encodeWithId emptyMethodModule tables contentId =
        .ok (generated.data, generated.report.contentId, generated.report.contentIdSource) ∧
      ∃ row ∈ tables.localScopes, row.length = 0 := by
  obtain ⟨generated, hgenerated, _⟩ := exists_generate_emptyMethod
  obtain ⟨hcode, hreaches⟩ := reaches_emptyMethod
  obtain ⟨tables, contentId, _, hencode, _, hlengths, _⟩ := generate_scope_lengths hgenerated
  refine ⟨generated, tables, contentId, hgenerated, hencode, ?_⟩
  by_contra hnone
  push Not at hnone
  exact hlengths.mp hnone (.methodDef 1) ⟨0, 0⟩ hcode hreaches rfl

/-- A tiny header may say that there is no code, and a container whose scope has no length is
generated and read for such a method. -/
theorem generate_writes_emptyScope :
    (MethodBody.read.eval #[2]).toOption.map (·.codeSize) = some 0 ∧
    ∃ generated container,
      generate emptyMethodModule emptyMethodDecompiler sampleOptions = .ok generated ∧
        Container.ofBytes generated.data = .ok container ∧
        ∃ scope ∈ container.localScopes, scope.method = .methodDef 1 ∧ scope.length = 0 := by
  obtain ⟨generated, hgenerated, hsize⟩ := exists_generate_emptyMethod
  obtain ⟨hcode, hreaches⟩ := reaches_emptyMethod
  obtain ⟨builder, tables, diagnostics, hgenerates⟩ := exists_generates hgenerated
  obtain ⟨container, hread⟩ := hgenerates.exists_ofBytes Deflate.isCompressor_deflate hsize
  obtain ⟨row, hrow, hkey⟩ := hgenerates.exists_row_of_reaches hcode hreaches
  have hrange : (Token.methodDef row.method, row.startOffset, row.length) ∈
      container.localScopes.toList.map fun scope =>
        (scope.method, scope.startOffset, scope.length) :=
    hgenerates.map_range_localScopes hread ▸
      List.mem_map.mpr ⟨row, Array.mem_toList_iff.mpr hrow, rfl⟩
  obtain ⟨scope, hscope, hsame⟩ := List.mem_map.mp hrange
  obtain ⟨hmethod, hrest⟩ := Prod.mk.inj hsame
  have hrow : row.method = 1 := congrArg (·.1) hkey
  have hlength : row.length = 0 := congrArg (·.2.2) hkey
  refine ⟨by decide, generated, container, hgenerated, hread, scope,
    Array.mem_toList_iff.mp hscope, ?_, ?_⟩
  · rw [hmethod, hrow]
  · exact (Prod.mk.inj hrest).2.trans hlength

end Generation

end PortablePdb
