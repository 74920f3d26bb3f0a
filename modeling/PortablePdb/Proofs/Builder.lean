import PortablePdb.Proofs.CustomInfo
import PortablePdb.Proofs.SequencePoints

namespace PortablePdb

open BlobHeap GuidHeap

/-- A row refers to the path, the digest and the other parts of a document. -/
structure DocumentRow.Describes (row : DocumentRow) (blobs guids : Bytes)
    (document : SourceDocument) : Prop where
  name : ∃ blob, HasBlob blobs row.name blob ∧ DocumentName.HasPath blobs blob document.path
  hashAlgorithm : HasGuid guids row.hashAlgorithm sha256Algorithm
  hash : HasBlob blobs row.hash document.hash.toArray
  language : HasGuid guids row.language csharpLanguage

theorem DocumentRow.Describes.numbered {row : DocumentRow} {blobs guids : Bytes}
    {document : SourceDocument} (hrow : row.Describes blobs guids document) (rid : UInt32) :
    { row with rid : DocumentRow }.Describes blobs guids document :=
  ⟨hrow.name, hrow.hashAlgorithm, hrow.hash, hrow.language⟩

/-- A row refers to the names that a scope imports. -/
def ImportScopeRow.Imports (row : ImportScopeRow) (blobs : Bytes) (names : List String) : Prop :=
  ∃ blob, HasBlob blobs row.imports blob ∧ RefersTo #[1] blobs names blob

/-- A record of custom debug information refers to its kind and its value. -/
structure StoresInfo (blobs guids : Bytes) (record : CodedIndex × UInt32 × UInt32)
    (info : CodedIndex × CustomKind × Bytes) : Prop where
  parent : record.1 = info.1
  kind : HasGuid guids record.2.1 info.2.1.guid
  value : HasBlob blobs record.2.2 info.2.2

namespace HeapBuilders

variable {heaps after : HeapBuilders}

theorem Extends.describes (hafter : after.Extends heaps) {row : DocumentRow}
    {document : SourceDocument} (hrow : row.Describes heaps.blobs.data heaps.guids.data document) :
    row.Describes after.blobs.data after.guids.data document where
  name := by
    obtain ⟨blob, hblob, hpath⟩ := hrow.name
    obtain ⟨more, hmore⟩ := hafter.blobs
    exact ⟨blob, hafter.hasBlob hblob, hmore ▸ hpath.grow more⟩
  hashAlgorithm := hafter.hasGuid hrow.hashAlgorithm
  hash := hafter.hasBlob hrow.hash
  language := hafter.hasGuid hrow.language

theorem Extends.imports (hafter : after.Extends heaps) {row : ImportScopeRow} {names : List String}
    (hrow : row.Imports heaps.blobs.data names) : row.Imports after.blobs.data names := by
  obtain ⟨blob, hblob, hrefers⟩ := hrow
  obtain ⟨more, hmore⟩ := hafter.blobs
  exact ⟨blob, hafter.hasBlob hblob, hmore ▸ hrefers.grow more⟩

theorem Extends.storesInfo (hafter : after.Extends heaps)
    {record : CodedIndex × UInt32 × UInt32} {info : CodedIndex × CustomKind × Bytes}
    (hrecord : StoresInfo heaps.blobs.data heaps.guids.data record info) :
    StoresInfo after.blobs.data after.guids.data record info where
  parent := hrecord.parent
  kind := hafter.hasGuid hrecord.kind
  value := hafter.hasBlob hrecord.value

/-- The row of a document refers to it in the heaps that come with the row. -/
theorem run_documentRow {document : SourceDocument} {rid : UInt32} {row : DocumentRow}
    (hrun : (DebugBuilder.documentRow document rid).run heaps = .ok row after)
    (hsound : heaps.IsSound) :
    after.Extends heaps ∧ row.rid = rid ∧
      row.Describes after.blobs.data after.guids.data document := by
  obtain ⟨nameBlob, first, hname, hrun⟩ := run_bind_eq_ok_iff.mp hrun
  obtain ⟨name, second, haddName, hrun⟩ := run_bind_eq_ok_iff.mp hrun
  obtain ⟨algorithm, third, halgorithm, hrun⟩ := run_bind_eq_ok_iff.mp hrun
  obtain ⟨hash, fourth, hhash, hrun⟩ := run_bind_eq_ok_iff.mp hrun
  obtain ⟨language, fifth, hlanguage, hrun⟩ := run_bind_eq_ok_iff.mp hrun
  obtain ⟨rfl, rfl⟩ := run_pure_eq_ok_iff.mp hrun
  obtain ⟨blobs, hblobs, rfl⟩ := run_onBlobs_eq_ok_iff.mp hname
  obtain ⟨hnext, hmore, hpath⟩ := DocumentName.run_encode hblobs hsound.blobs
  have hfirst := extends_of_blobs hsound hnext hmore
  obtain ⟨hsecond, hnameBlob⟩ := run_addBlob haddName hfirst.sound
  obtain ⟨hthird, halgorithmGuid⟩ := run_addGuid halgorithm hsecond.sound
  obtain ⟨hfourth, hhashBlob⟩ := run_addBlob hhash hthird.sound
  obtain ⟨hfifth, hlanguageGuid⟩ := run_addGuid hlanguage hfourth.sound
  have hlater := (hfifth.trans hfourth).trans hthird
  refine ⟨(hlater.trans hsecond).trans hfirst, rfl, ?_, ?_, ?_, hlanguageGuid⟩
  · obtain ⟨more, hmore⟩ := (hlater.trans hsecond).blobs
    exact ⟨nameBlob, hlater.hasBlob hnameBlob, hmore ▸ hpath.grow more⟩
  · exact (hfifth.trans hfourth).hasGuid halgorithmGuid
  · exact hfifth.hasBlob hhashBlob

end HeapBuilders

namespace DebugBuilder

variable {builder after : DebugBuilder}

/-- The number of a row fits a token, and it is not zero. -/
theorem nextRow_eq_ok {count : Nat} {rid : UInt32} (hrid : nextRow count = .ok rid) :
    rid.toNat = count + 1 ∧ count + 1 ≤ 0xFFFFFF := by
  unfold nextRow at hrid
  split at hrid
  · next hfits =>
    cases hrid
    exact ⟨UInt32.toNat_ofNat_of_lt' (by simp [UInt32.size]; omega), hfits⟩
  · cases hrid

theorem nextRow_eq_error {count : Nat} {error : Error} (hnext : nextRow count = .error error) :
    error = .malformed .rowRange := by
  unfold nextRow at hnext
  split at hnext <;> cases hnext
  rfl

/-- A record of custom debug information goes behind those that are there. -/
theorem run_addCustomInfo {parent : CodedIndex} {kind : CustomKind} {value : Bytes} {done : Unit}
    (hrun : (addCustomInfo parent kind value).run builder = .ok done after)
    (hsound : builder.heaps.IsSound) :
    (∃ key, parent.encode .hasCustomDebugInformation = .ok key) ∧
      ∃ heaps record, heaps.Extends builder.heaps ∧
        StoresInfo heaps.blobs.data heaps.guids.data record (parent, kind, value) ∧
        after = { builder with heaps, customInfo := builder.customInfo.push record } := by
  obtain ⟨_, _, hparent, hrun⟩ := run_bind_eq_ok_iff.mp hrun
  obtain ⟨key, hparent⟩ := run_discard_eq_ok_iff.mp hparent
  obtain ⟨hkey, rfl⟩ := run_orFail_eq_ok_iff.mp hparent
  obtain ⟨⟨guid, blob⟩, _, hboth, hrun⟩ := run_bind_eq_ok_iff.mp hrun
  obtain ⟨heaps, hadd, rfl⟩ := run_onHeaps_eq_ok_iff.mp hboth
  obtain ⟨_, middle, hguid, hadd⟩ := run_bind_eq_ok_iff.mp hadd
  obtain ⟨_, _, hblob, hadd⟩ := run_bind_eq_ok_iff.mp hadd
  obtain ⟨hpair, rfl⟩ := run_pure_eq_ok_iff.mp hadd
  obtain ⟨rfl, rfl⟩ := Prod.mk.inj hpair
  obtain ⟨hmiddle, hguid⟩ := HeapBuilders.run_addGuid hguid hsound
  obtain ⟨hheaps, hblob⟩ := HeapBuilders.run_addBlob hblob hmiddle.sound
  exact ⟨⟨key, hkey⟩, _, _, hheaps.trans hmiddle, ⟨rfl, hheaps.hasGuid hguid, hblob⟩,
    (run_modify_eq_ok_iff.mp hrun).symm⟩

/-- A document goes behind those that are there, with its source. -/
theorem run_addDocument {document : SourceDocument} {rid : UInt32}
    (hrun : (addDocument document).run builder = .ok rid after) (hsound : builder.heaps.IsSound) :
    ∃ heaps row record, heaps.Extends builder.heaps ∧
      nextRow builder.documents.size = .ok rid ∧ row.rid = rid ∧
      row.Describes heaps.blobs.data heaps.guids.data document ∧
      StoresInfo heaps.blobs.data heaps.guids.data record
        (⟨.document, rid⟩, .embeddedSource, document.embedded) ∧
      after = { builder with
        heaps
        documents := builder.documents.push row
        documentRows := builder.documentRows.insert document.path rid
        customInfo := builder.customInfo.push record } := by
  obtain ⟨_, _, hget, hrun⟩ := run_bind_eq_ok_iff.mp hrun
  obtain ⟨rfl, rfl⟩ := run_get_eq_ok_iff.mp hget
  obtain ⟨_, hrun⟩ := run_guard_eq_ok_iff.mp hrun
  obtain ⟨_, _, hget, hrun⟩ := run_bind_eq_ok_iff.mp hrun
  obtain ⟨rfl, rfl⟩ := run_get_eq_ok_iff.mp hget
  obtain ⟨_, _, hstep, hrun⟩ := run_bind_eq_ok_iff.mp hrun
  obtain ⟨hnext, rfl⟩ := run_orFail_eq_ok_iff.mp hstep
  obtain ⟨row, _, hstep, hrun⟩ := run_bind_eq_ok_iff.mp hrun
  obtain ⟨heaps, hrow, rfl⟩ := run_onHeaps_eq_ok_iff.mp hstep
  obtain ⟨_, _, hmodify, hrun⟩ := run_bind_eq_ok_iff.mp hrun
  obtain rfl := run_modify_eq_ok_iff.mp hmodify
  obtain ⟨_, _, hinfo, hrun⟩ := run_bind_eq_ok_iff.mp hrun
  obtain ⟨rfl, rfl⟩ := run_pure_eq_ok_iff.mp hrun
  obtain ⟨hheaps, hrid, hdescribes⟩ := HeapBuilders.run_documentRow hrow hsound
  obtain ⟨_, later, record, hlater, hrecord, rfl⟩ := run_addCustomInfo hinfo hheaps.sound
  exact ⟨later, row, record, hlater.trans hheaps, hnext, hrid, hlater.describes hdescribes,
    hrecord, rfl⟩

/-- A scope of imports goes behind those that are there, one of which is the scope around it. -/
theorem run_addImportScope {parent rid : UInt32} {names : NameSet}
    (hrun : (addImportScope parent names).run builder = .ok rid after)
    (hsound : builder.heaps.IsSound) :
    (parent ≠ 0 ∧ parent.toNat ≤ builder.importScopes.size) ∧
      ∃ heaps row, heaps.Extends builder.heaps ∧ nextRow builder.importScopes.size = .ok rid ∧
        row.rid = rid ∧ row.parent = parent ∧ row.Imports heaps.blobs.data names.toList ∧
        after = { builder with heaps, importScopes := builder.importScopes.push row } := by
  obtain ⟨_, _, hget, hrun⟩ := run_bind_eq_ok_iff.mp hrun
  obtain ⟨rfl, rfl⟩ := run_get_eq_ok_iff.mp hget
  obtain ⟨hparent, hrun⟩ := run_guard_eq_ok_iff.mp hrun
  simp only [Bool.or_eq_true, decide_eq_true_eq, not_or, not_lt] at hparent
  obtain ⟨index, _, hstep, hrun⟩ := run_bind_eq_ok_iff.mp hrun
  obtain ⟨heaps, hadd, rfl⟩ := run_onHeaps_eq_ok_iff.mp hstep
  obtain ⟨_, _, hget, hrun⟩ := run_bind_eq_ok_iff.mp hrun
  obtain ⟨rfl, rfl⟩ := run_get_eq_ok_iff.mp hget
  obtain ⟨_, _, hstep, hrun⟩ := run_bind_eq_ok_iff.mp hrun
  obtain ⟨hnext, rfl⟩ := run_orFail_eq_ok_iff.mp hstep
  obtain ⟨_, _, hmodify, hrun⟩ := run_bind_eq_ok_iff.mp hrun
  obtain ⟨rfl, rfl⟩ := run_pure_eq_ok_iff.mp hrun
  obtain rfl := run_modify_eq_ok_iff.mp hmodify
  obtain ⟨blob, _, hblob, hadd⟩ := run_bind_eq_ok_iff.mp hadd
  obtain ⟨blobs, hblobs, rfl⟩ := HeapBuilders.run_onBlobs_eq_ok_iff.mp hblob
  obtain ⟨hsoundBlobs, hmore, hrefers⟩ := Imports.run_encode hblobs hsound.blobs
  have hmiddle := HeapBuilders.extends_of_blobs hsound hsoundBlobs hmore
  obtain ⟨hheaps, hindex⟩ := HeapBuilders.run_addBlob hadd hmiddle.sound
  obtain ⟨more, hmore⟩ := hheaps.blobs
  exact ⟨hparent, heaps, ⟨_, parent, index⟩, hheaps.trans hmiddle, hnext, rfl, rfl,
    ⟨blob, hindex, hmore ▸ hrefers.grow more⟩, rfl⟩

/-- The first submission of a method is recorded, and further ones leave everything as it is. -/
theorem run_addMethod {method : Token} {document : UInt32} {points : Option Bytes} {isFirst : Bool}
    (hrun : (addMethod method document points).run builder = .ok isFirst after)
    (hsound : builder.heaps.IsSound) :
    method.isTable .methodDef = true ∧ isFirst = !builder.hasMethod method ∧
      (isFirst = false → after = builder) ∧
      (isFirst = true → ∃ heaps entry, heaps.Extends builder.heaps ∧
        (∀ blob, points = some blob →
          entry.1 = document ∧ HasBlob heaps.blobs.data entry.2 blob) ∧
        (points = none → entry = (0, 0)) ∧
        after = { builder with heaps, methods := builder.methods.insert method.row entry }) := by
  obtain ⟨_, _, hcheck, hrun⟩ := run_bind_eq_ok_iff.mp hrun
  obtain ⟨hmethod, rfl⟩ := run_checkMethod_eq_ok_iff.mp hcheck
  obtain ⟨_, _, hget, hrun⟩ := run_bind_eq_ok_iff.mp hrun
  obtain ⟨rfl, rfl⟩ := run_get_eq_ok_iff.mp hget
  refine ⟨hmethod, ?_⟩
  split at hrun
  · next hhas =>
    obtain ⟨rfl, rfl⟩ := run_pure_eq_ok_iff.mp hrun
    simp [hhas]
  · next hhas =>
    have hheaps := hsound.extends_self
    cases points with
    | none =>
      obtain ⟨_, _, hentry, hrun⟩ := run_bind_eq_ok_iff.mp hrun
      obtain ⟨rfl, rfl⟩ := run_pure_eq_ok_iff.mp hentry
      obtain ⟨_, _, hmodify, hrun⟩ := run_bind_eq_ok_iff.mp hrun
      obtain ⟨rfl, rfl⟩ := run_pure_eq_ok_iff.mp hrun
      obtain rfl := run_modify_eq_ok_iff.mp hmodify
      exact ⟨by simp [hhas], nofun, fun _ => ⟨_, (0, 0), hheaps, nofun, fun _ => rfl, rfl⟩⟩
    | some blob =>
      obtain ⟨index, _, hstep, hrun⟩ := run_bind_eq_ok_iff.mp hrun
      obtain ⟨heaps, hadd, rfl⟩ := run_onHeaps_eq_ok_iff.mp hstep
      obtain ⟨_, _, hentry, hrun⟩ := run_bind_eq_ok_iff.mp hrun
      obtain ⟨rfl, rfl⟩ := run_pure_eq_ok_iff.mp hentry
      obtain ⟨_, _, hmodify, hrun⟩ := run_bind_eq_ok_iff.mp hrun
      obtain ⟨rfl, rfl⟩ := run_pure_eq_ok_iff.mp hrun
      obtain rfl := run_modify_eq_ok_iff.mp hmodify
      obtain ⟨hextends, hblob⟩ := HeapBuilders.run_addBlob hadd hsound
      refine ⟨by simp [hhas], nofun, fun _ => ⟨_, (document, index), hextends, ?_, nofun, rfl⟩⟩
      rintro _ ⟨⟩
      exact ⟨rfl, hblob⟩

/-- A scope is recorded with its variables in the order of their slots, unless there is one of the
same method and range. -/
theorem run_addLocalScope {method : Token} {importScope start length : UInt32}
    {slots : List LocalVariable} {isFirst : Bool}
    (hrun : (addLocalScope method importScope start length slots).run builder =
      .ok isFirst after) :
    method.isTable .methodDef = true ∧
      isFirst = !builder.scopeKeys.contains (method.row, start, length) ∧
      (isFirst = false → after = builder) ∧
      (isFirst = true → ∃ heaps rows,
        (variableRows slots).run builder.heaps = .ok rows heaps ∧
        after = { builder with
          heaps
          scopeKeys := builder.scopeKeys.insert (method.row, start, length)
          localScopes := builder.localScopes.push
            (⟨0, method.row, importScope, 0, 0, start, length⟩,
              rows.mergeSort fun a b => a.index ≤ b.index) }) := by
  obtain ⟨_, _, hcheck, hrun⟩ := run_bind_eq_ok_iff.mp hrun
  obtain ⟨hmethod, rfl⟩ := run_checkMethod_eq_ok_iff.mp hcheck
  obtain ⟨_, _, hget, hrun⟩ := run_bind_eq_ok_iff.mp hrun
  obtain ⟨rfl, rfl⟩ := run_get_eq_ok_iff.mp hget
  refine ⟨hmethod, ?_⟩
  split at hrun
  · next hknown =>
    obtain ⟨rfl, rfl⟩ := run_pure_eq_ok_iff.mp hrun
    simp [hknown]
  · next hnew =>
    obtain ⟨_, _, hmodify, hrun⟩ := run_bind_eq_ok_iff.mp hrun
    obtain rfl := run_modify_eq_ok_iff.mp hmodify
    obtain ⟨rows, _, hstep, hrun⟩ := run_bind_eq_ok_iff.mp hrun
    obtain ⟨heaps, hrows, rfl⟩ := run_onHeaps_eq_ok_iff.mp hstep
    obtain ⟨_, _, hpush, hrun⟩ := run_bind_eq_ok_iff.mp hrun
    obtain ⟨rfl, rfl⟩ := run_pure_eq_ok_iff.mp hrun
    exact ⟨by simp [hnew], nofun, fun _ =>
      ⟨heaps, rows, hrows, (run_modify_eq_ok_iff.mp hpush).symm⟩⟩

/-- A scope without variables goes behind those that are there, unless its range is taken. -/
theorem run_addLocalScope_nil {method : Token} {importScope start length : UInt32} {isFirst : Bool}
    (hrun : (addLocalScope method importScope start length []).run builder = .ok isFirst after) :
    method.isTable .methodDef = true ∧
      (builder.scopeKeys.contains (method.row, start, length) = true ∧ after = builder ∨
        builder.scopeKeys.contains (method.row, start, length) = false ∧ after = { builder with
          scopeKeys := builder.scopeKeys.insert (method.row, start, length)
          localScopes := builder.localScopes.push
            (⟨0, method.row, importScope, 0, 0, start, length⟩, []) }) := by
  obtain ⟨hmethod, hfirst, hknown, hnew⟩ := run_addLocalScope hrun
  refine ⟨hmethod, ?_⟩
  cases isFirst with
  | false => exact .inl ⟨by simpa using hfirst, hknown rfl⟩
  | true =>
    obtain ⟨_, _, hnone, rfl⟩ := hnew rfl
    obtain ⟨rfl, rfl⟩ := run_pure_eq_ok_iff.mp hnone
    exact .inr ⟨by simpa using hfirst, by rw [List.mergeSort_nil]⟩

theorem run_addStateMachine {moveNext kickoff : Token} {done : Unit}
    (hrun : (addStateMachine moveNext kickoff).run builder = .ok done after) :
    after = { builder with machines := builder.machines.push (moveNext.row, kickoff.row) } := by
  obtain ⟨_, _, hcheck, hrun⟩ := run_bind_eq_ok_iff.mp hrun
  obtain ⟨_, rfl⟩ := run_checkMethod_eq_ok_iff.mp hcheck
  obtain ⟨_, _, hcheck, hrun⟩ := run_bind_eq_ok_iff.mp hrun
  obtain ⟨_, rfl⟩ := run_checkMethod_eq_ok_iff.mp hcheck
  exact (run_modify_eq_ok_iff.mp hrun).symm

/-- A method that was submitted before is left as it is. -/
theorem run_addMethod_known {method : Token} (hmethod : method.isTable .methodDef = true)
    (hknown : builder.hasMethod method = true) (document : UInt32) (points : Option Bytes) :
    (addMethod method document points).run builder = .ok false builder := by
  refine run_bind_eq_ok_iff.mpr ⟨(), _, run_checkMethod_eq_ok_iff.mpr ⟨hmethod, rfl⟩, ?_⟩
  refine run_bind_eq_ok_iff.mpr ⟨_, _, run_get_eq_ok_iff.mpr ⟨rfl, rfl⟩, ?_⟩
  rw [if_pos hknown]
  rfl

/-- A method with points is recorded with their blob, unless it was submitted before. -/
theorem run_addMethod_new {method : Token} (hmethod : method.isTable .methodDef = true)
    (hnew : builder.hasMethod method = false) (document : UInt32) {points : Bytes} {index : UInt32}
    {heaps : HeapBuilders}
    (hpoints : (HeapBuilders.addBlob points).run builder.heaps = .ok index heaps) :
    (addMethod method document (some points)).run builder = .ok true { builder with
      heaps, methods := builder.methods.insert method.row (document, index) } := by
  refine run_bind_eq_ok_iff.mpr ⟨(), _, run_checkMethod_eq_ok_iff.mpr ⟨hmethod, rfl⟩, ?_⟩
  refine run_bind_eq_ok_iff.mpr ⟨_, _, run_get_eq_ok_iff.mpr ⟨rfl, rfl⟩, ?_⟩
  rw [if_neg (by simpa using hnew)]
  exact run_bind_eq_ok_iff.mpr ⟨_, _, run_onHeaps_eq_ok_iff.mpr ⟨_, hpoints, rfl⟩, rfl⟩

/-- A method without points is recorded without a document, unless it was submitted before. -/
theorem run_addMethod_pointless {method : Token} (hmethod : method.isTable .methodDef = true)
    (hnew : builder.hasMethod method = false) (document : UInt32) :
    (addMethod method document none).run builder =
      .ok true { builder with methods := builder.methods.insert method.row (0, 0) } := by
  refine run_bind_eq_ok_iff.mpr ⟨(), _, run_checkMethod_eq_ok_iff.mpr ⟨hmethod, rfl⟩, ?_⟩
  refine run_bind_eq_ok_iff.mpr ⟨_, _, run_get_eq_ok_iff.mpr ⟨rfl, rfl⟩, ?_⟩
  rw [if_neg (by simpa using hnew)]
  rfl

/-- A record of custom debug information goes behind those that are there, when its kind and its
value have got their places in the heaps. -/
theorem run_addCustomInfo_new {parent : CodedIndex} {key : UInt32}
    (hparent : parent.encode .hasCustomDebugInformation = .ok key) {kind : CustomKind}
    {value : Bytes} {guids : GuidHeap.Builder} {blobs : BlobHeap.Builder} {first second : UInt32}
    (hkind : (GuidHeap.Builder.add kind.guid).run builder.heaps.guids = .ok first guids)
    (hvalue : (BlobHeap.Builder.add value).run builder.heaps.blobs = .ok second blobs) :
    (addCustomInfo parent kind value).run builder = .ok () { builder with
      heaps := ⟨builder.heaps.strings, blobs, guids⟩
      customInfo := builder.customInfo.push (parent, first, second) } := by
  refine run_bind_eq_ok_iff.mpr ⟨(), builder, ?_, ?_⟩
  · exact run_discard_eq_ok_iff.mpr ⟨key, run_orFail_eq_ok_iff.mpr ⟨hparent, rfl⟩⟩
  refine run_bind_eq_ok_iff.mpr ⟨(first, second), _, run_onHeaps_eq_ok_iff.mpr ⟨_, ?_, rfl⟩, rfl⟩
  refine run_bind_eq_ok_iff.mpr ⟨first, { builder.heaps with guids }, ?_, ?_⟩
  · exact HeapBuilders.run_onGuids_eq_ok_iff.mpr ⟨guids, hkind, rfl⟩
  · exact run_bind_eq_ok_iff.mpr
      ⟨second, _, HeapBuilders.run_onBlobs_eq_ok_iff.mpr ⟨blobs, hvalue, rfl⟩, rfl⟩

/-- A scope is left out if there is one of the same method and range. -/
theorem run_addLocalScope_known {method : Token} (hmethod : method.isTable .methodDef = true)
    {start length : UInt32} (hknown : builder.scopeKeys.contains (method.row, start, length) = true)
    (importScope : UInt32) {slots : List LocalVariable} :
    (addLocalScope method importScope start length slots).run builder = .ok false builder := by
  refine run_bind_eq_ok_iff.mpr ⟨(), _, run_checkMethod_eq_ok_iff.mpr ⟨hmethod, rfl⟩, ?_⟩
  refine run_bind_eq_ok_iff.mpr ⟨_, _, run_get_eq_ok_iff.mpr ⟨rfl, rfl⟩, ?_⟩
  rw [if_pos hknown]
  rfl

/-- A scope of a new range goes behind those that are there, with its variables. -/
theorem run_addLocalScope_rows {method : Token} (hmethod : method.isTable .methodDef = true)
    {start length : UInt32} (hnew : builder.scopeKeys.contains (method.row, start, length) = false)
    (importScope : UInt32) {slots : List LocalVariable} {rows : List LocalVariableRow}
    {heaps : HeapBuilders} (hrows : (variableRows slots).run builder.heaps = .ok rows heaps) :
    (addLocalScope method importScope start length slots).run builder = .ok true { builder with
      heaps
      scopeKeys := builder.scopeKeys.insert (method.row, start, length)
      localScopes := builder.localScopes.push
        (⟨0, method.row, importScope, 0, 0, start, length⟩,
          rows.mergeSort fun a b => a.index ≤ b.index) } := by
  refine run_bind_eq_ok_iff.mpr ⟨(), _, run_checkMethod_eq_ok_iff.mpr ⟨hmethod, rfl⟩, ?_⟩
  refine run_bind_eq_ok_iff.mpr ⟨_, _, run_get_eq_ok_iff.mpr ⟨rfl, rfl⟩, ?_⟩
  rw [if_neg (by simpa using hnew)]
  refine run_bind_eq_ok_iff.mpr ⟨(), _, run_modify_eq_ok_iff.mpr rfl, ?_⟩
  exact run_bind_eq_ok_iff.mpr ⟨rows, _, run_onHeaps_eq_ok_iff.mpr ⟨_, hrows, rfl⟩, rfl⟩

theorem run_addLocalScope_new {method : Token} (hmethod : method.isTable .methodDef = true)
    {start length : UInt32} (hnew : builder.scopeKeys.contains (method.row, start, length) = false)
    (importScope : UInt32) :
    (addLocalScope method importScope start length []).run builder = .ok true { builder with
      scopeKeys := builder.scopeKeys.insert (method.row, start, length)
      localScopes := builder.localScopes.push
        (⟨0, method.row, importScope, 0, 0, start, length⟩, []) } := by
  have hrows : (variableRows []).run builder.heaps = .ok [] builder.heaps := rfl
  rw [run_addLocalScope_rows hmethod hnew importScope hrows, List.mergeSort_nil]

end DebugBuilder

end PortablePdb
