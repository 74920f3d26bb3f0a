import PortablePdb.Generation.FileRecords
import PortablePdb.Proofs.References

namespace PortablePdb

namespace FunctionRecords

theorem machineOf_eq_ok {function : DecompiledFunction} {module : Module} {moveNext : Token}
    {machine : StateMachine} (hmachine : machineOf function module moveNext = .ok machine) :
    machine.moveNext = moveNext ∧ machine.kickoff = function.method ∧
      ∃ scopes, machine.hoisted = CustomInfo.encodeHoisted scopes := by
  obtain ⟨_, hmachine⟩ := guard_eq_ok_iff.mp hmachine
  rw [← pure_eq_ok_iff.mp hmachine]
  exact ⟨rfl, rfl, _, rfl⟩

/-- The records of a function are about the method that holds its code, and their blobs are those of
hoisted locals and of stepping. -/
theorem ofFunction_eq_ok {function : DecompiledFunction} {module : Module}
    {records : FunctionRecords} (hrecords : ofFunction function module = .ok records) :
    (∀ machine, records.machine = some machine → machine.moveNext = function.bodyMethod ∧
      machine.kickoff = function.method ∧
      ∃ scopes, machine.hoisted = CustomInfo.encodeHoisted scopes) ∧
    (∀ method blob, records.stepping = some (method, blob) → method = function.bodyMethod ∧
      ∃ stepping, CustomInfo.encodeStepping stepping method = .ok blob) := by
  obtain ⟨machine, hmachine, hrecords⟩ := bind_eq_ok_iff.mp hrecords
  have hmachines : ∀ found, machine = some found → found.moveNext = function.bodyMethod ∧
      found.kickoff = function.method ∧
      ∃ scopes, found.hoisted = CustomInfo.encodeHoisted scopes := by
    rintro found rfl
    unfold DecompiledFunction.bodyMethod
    cases hmoveNext : function.moveNext with
    | none =>
      rw [hmoveNext] at hmachine
      cases hmachine
    | some moveNext =>
      rw [hmoveNext, Option.mapM_some, map_eq_pure_bind] at hmachine
      obtain ⟨_, hfound, hmachine⟩ := bind_eq_ok_iff.mp hmachine
      cases hmachine
      exact machineOf_eq_ok hfound
  simp only at hrecords
  split at hrecords
  · obtain ⟨blob, hblob, hrecords⟩ := bind_eq_ok_iff.mp hrecords
    rw [pure_bind] at hrecords
    rw [← pure_eq_ok_iff.mp hrecords]
    refine ⟨hmachines, ?_⟩
    rintro _ _ ⟨⟩
    exact ⟨rfl, _, hblob⟩
  · rw [pure_bind] at hrecords
    rw [← pure_eq_ok_iff.mp hrecords]
    exact ⟨hmachines, nofun⟩

end FunctionRecords

/-- What is submitted for a method is about this method. -/
structure MethodRecords.IsOwn (entry : MethodRecords) : Prop where
  method : entry.method.isTable .methodDef = true
  machineRows : ∀ row ∈ entry.records.machineRows, row.1 = entry.method.row
  infos : ∀ info ∈ entry.records.infos, info.1 = ⟨.methodDef, entry.method.row⟩

namespace FileRecords

/-- The points of a method are what their blob was encoded from. -/
theorem encode_of_pointsOf {path : String} {shift : UInt32} {method : Token}
    {code : Option MethodCode} {points : List SequencePoint} {blob : Bytes}
    (hblob : (pointsOf path shift method code points).1 = some blob) :
    ∃ localSignature list, SequencePoints.encode localSignature list = .ok (some blob) := by
  unfold pointsOf at hblob
  split at hblob
  · cases hblob
  · split at hblob
    · cases hblob
    · split at hblob
      · next code _ _ _ hencode =>
        exact ⟨_, _, hencode.trans (congrArg Except.ok hblob)⟩
      · cases hblob

/-- What is accepted of a function of a file. -/
structure Accepts (module : Module) (function : DecompiledFunction) (entry : MethodRecords) :
    Prop where
  method : entry.method = function.bodyMethod
  exists_body : (module.method? entry.method).isSome = true
  exists_kickoff : (module.method? function.method).isSome = true
  points : ∀ blob, entry.points = some blob →
    ∃ localSignature list, SequencePoints.encode localSignature list = .ok (some blob)
  records : entry.records = {} ∨ FunctionRecords.ofFunction function module = .ok entry.records

theorem accepts_of_ofFunction {path : String} {module : Module} {shift : UInt32}
    {file : DecompiledFile} {function : DecompiledFunction} {entry : MethodRecords}
    (hentry : (ofFunction path module shift file function).1 = some entry) :
    Accepts module function entry := by
  unfold ofFunction at hentry
  simp only at hentry
  split at hentry
  · cases hentry
  · next body hbody =>
    split at hentry
    · cases hentry
    · next hkickoff =>
      cases hentry
      exact {
        method := rfl
        exists_body := by simp [hbody]
        exists_kickoff := by simpa [Option.isSome_iff_ne_none] using hkickoff
        points := fun blob hblob => encode_of_pointsOf hblob
        records := by
          unfold machineOf
          split
          · next records hrecords => exact .inr hrecords
          · exact .inl rfl }

theorem isTable_of_method? {module : Module} {token : Token}
    (hmethod : (module.method? token).isSome = true) : token.isTable .methodDef = true := by
  unfold Module.method? at hmethod
  split at hmethod
  · assumption
  · cases hmethod

/-- What is accepted of a function is about the method of the function. -/
theorem Accepts.isOwn {module : Module} {function : DecompiledFunction} {entry : MethodRecords}
    (haccepts : Accepts module function entry) : entry.IsOwn := by
  have hmethod := isTable_of_method? haccepts.exists_body
  rcases haccepts.records with hnone | hrecords
  · exact ⟨hmethod, by simp [hnone, FunctionRecords.machineRows],
      by simp [hnone, FunctionRecords.infos]⟩
  · obtain ⟨hmachine, hstepping⟩ := FunctionRecords.ofFunction_eq_ok hrecords
    rw [← haccepts.method] at hmachine hstepping
    refine ⟨hmethod, ?_, ?_⟩
    · intro row hrow
      simp only [FunctionRecords.machineRows, List.mem_map, Option.mem_toList] at hrow
      obtain ⟨machine, hfound, rfl⟩ := hrow
      rw [(hmachine machine hfound).1]
    · intro info hinfo
      simp only [FunctionRecords.infos, List.mem_append, List.mem_map, Option.mem_toList] at hinfo
      rcases hinfo with ⟨machine, hfound, rfl⟩ | ⟨⟨method, blob⟩, hfound, rfl⟩
      · rw [(hmachine machine hfound).1]
      · rw [(hstepping method blob hfound).1]

/-- A state machine is run by the method that holds the code and started by the method itself. -/
theorem Accepts.mem_machineRows {module : Module} {function : DecompiledFunction}
    {entry : MethodRecords} (haccepts : Accepts module function entry) {row : UInt32 × UInt32}
    (hrow : row ∈ entry.records.machineRows) :
    row = (entry.method.row, function.method.row) := by
  obtain ⟨machine, hfound, rfl⟩ := List.mem_map.mp hrow
  rcases haccepts.records with hnone | hrecords
  · simp [hnone] at hfound
  · obtain ⟨hmachine, _⟩ := FunctionRecords.ofFunction_eq_ok hrecords
    obtain ⟨hmoveNext, hkickoff, _⟩ := hmachine machine (Option.mem_toList.mp hfound)
    rw [hmoveNext, hkickoff, haccepts.method]

theorem Accepts.isEncoded {module : Module} {function : DecompiledFunction} {entry : MethodRecords}
    (haccepts : Accepts module function entry) : entry.IsEncoded := by
  refine ⟨haccepts.points, ?_⟩
  rcases haccepts.records with hnone | hrecords
  · simp [hnone, FunctionRecords.infos]
  · obtain ⟨hmachine, hstepping⟩ := FunctionRecords.ofFunction_eq_ok hrecords
    intro info hinfo
    simp only [FunctionRecords.infos, List.mem_append, List.mem_map, Option.mem_toList] at hinfo
    rcases hinfo with ⟨machine, hfound, rfl⟩ | ⟨⟨method, blob⟩, hfound, rfl⟩
    · obtain ⟨_, _, scopes, hhoisted⟩ := hmachine machine hfound
      rw [hhoisted]
      exact ⟨Token.row_lt _, by simp [CustomKind.known], _, CustomInfo.decode_encodeHoisted scopes⟩
    · obtain ⟨_, stepping, hblob⟩ := hstepping method blob hfound
      exact ⟨Token.row_lt _, by simp [CustomKind.known], _, CustomInfo.decode_encodeStepping hblob⟩

/-- The records of a decompiled file are those of its document, of its scopes, and of the functions
in them. What is reported is all about these functions. -/
structure AreOf (file : FileRecords) (path : String) (module : Module) (banner : Option String)
    (decompiled : DecompiledFile) (compress : Bytes → Bytes) : Prop where
  document :
    SourceDocument.ofText path (sourceOf banner decompiled).2 compress = .ok file.document
  scopes : FileScopes.ofFile decompiled module = .ok file.scopes
  methods : file.methods = (ofFunctions path module (sourceOf banner decompiled).1 decompiled
    file.scopes.functions.toList).filterMap (·.1)
  diagnostics : (ofDecompiled path module banner decompiled compress).diagnostics =
    (ofFunctions path module (sourceOf banner decompiled).1 decompiled
      file.scopes.functions.toList).flatMap (·.2)

theorem areOf_ofDecompiled {path : String} {module : Module} {banner : Option String}
    {decompiled : DecompiledFile} {compress : Bytes → Bytes} {file : FileRecords}
    (hfile : (ofDecompiled path module banner decompiled compress).records = some file) :
    file.AreOf path module banner decompiled compress := by
  unfold ofDecompiled at hfile
  split at hfile
  · cases hfile
  · next points hpoints =>
    split at hfile
    · cases hfile
    · next hempty =>
      split at hfile
      · cases hfile
      · next scopes hscopes =>
        simp only at hfile
        split at hfile
        · cases hfile
        · next document hdocument =>
          cases hfile
          refine ⟨hdocument, hscopes, rfl, ?_⟩
          simp only [ofDecompiled, hpoints, if_neg hempty, hscopes, hdocument]

variable {module : Module} {decompiler : Decompiler} {banner : Option String}
  {source : SourceFile} {compress : Bytes → Bytes} {file : FileRecords}

/-- The records of a source file are those of what it was decompiled to. -/
theorem exists_areOf
    (hfile : (FileOutcome.ofFile module decompiler banner source compress).records = some file) :
    ∃ decompiled, decompiler.decompile source.types = .ok decompiled ∧
      file.AreOf source.path module banner decompiled compress := by
  unfold FileOutcome.ofFile at hfile
  split at hfile
  · next hdecompiled => exact ⟨_, hdecompiled, areOf_ofDecompiled hfile⟩
  · cases hfile

theorem AreOf.accepts {path : String} {decompiled : DecompiledFile}
    (hfile : file.AreOf path module banner decompiled compress) :
    ∀ entry ∈ file.methods, ∃ function, Accepts module function entry := by
  intro entry hentry
  simp only [hfile.methods, ofFunctions, List.mem_filterMap, List.mem_map] at hentry
  obtain ⟨_, ⟨function, _, rfl⟩, hentry⟩ := hentry
  exact ⟨function, accepts_of_ofFunction hentry⟩

theorem path_ofFile :
    (FileOutcome.ofFile module decompiler banner source compress).path = source.path := by
  unfold FileOutcome.ofFile
  split
  · unfold ofDecompiled
    split
    · rfl
    · split
      · rfl
      · split
        · rfl
        · simp only
          split <;> rfl
  · rfl

theorem isEncoded_of_ofFile
    (hcompress : Deflate.IsCompressor compress)
    (hfile : (FileOutcome.ofFile module decompiler banner source compress).records = some file) :
    file.IsEncoded := by
  obtain ⟨decompiled, _, hof⟩ := exists_areOf hfile
  obtain ⟨blob, hblob, hdocument⟩ := bind_eq_ok_iff.mp hof.document
  obtain ⟨content, hdecode, _⟩ := CustomInfo.decode_encodeSource hcompress hblob
  constructor
  · rw [← pure_eq_ok_iff.mp hdocument]
    exact ⟨_, hdecode⟩
  · intro entry hentry
    obtain ⟨function, haccepts⟩ := hof.accepts entry hentry
    exact haccepts.isEncoded

/-- Only merging reports methods that were submitted before. -/
theorem category_ofFunction {path : String} {module : Module} {shift : UInt32}
    {file : DecompiledFile} {function : DecompiledFunction} {diagnostic : Diagnostic}
    (hdiagnostic : diagnostic ∈ (ofFunction path module shift file function).2) :
    diagnostic.category ≠ .duplicateMethod := by
  have hpoints {code : Option MethodCode} {points : List SequencePoint}
      (hmem : diagnostic ∈ (pointsOf path shift function.bodyMethod code points).2) :
      diagnostic.category ≠ .duplicateMethod := by
    unfold pointsOf at hmem
    simp only at hmem
    split at hmem
    · cases hmem
    · split at hmem
      · rw [List.mem_singleton.mp hmem]
        nofun
      · split at hmem <;> split at hmem <;> simp only [report, List.nil_append, List.mem_cons,
          List.cons_append, List.not_mem_nil, or_false] at hmem
        · rw [hmem]
          nofun
        · rw [hmem]
          nofun
        · rcases hmem with rfl | rfl <;> nofun
  have hmachine (hmem : diagnostic ∈ (machineOf path module function).2) :
      diagnostic.category ≠ .duplicateMethod := by
    unfold machineOf at hmem
    split at hmem
    · cases hmem
    · rw [List.mem_singleton.mp hmem]
      nofun
  unfold ofFunction at hdiagnostic
  simp only at hdiagnostic
  split at hdiagnostic
  · rw [List.mem_singleton.mp hdiagnostic]
    nofun
  · split at hdiagnostic
    · rw [List.mem_singleton.mp hdiagnostic]
      nofun
    · rcases List.mem_append.mp hdiagnostic with hmem | hmem
      · exact hpoints hmem
      · exact hmachine hmem

end FileRecords

namespace FileOutcome

/-- What comes of a file is about the file, and only merging reports duplicates. -/
structure IsOwn (outcome : FileOutcome) : Prop where
  path : ∀ file, outcome.records = some file → file.document.path = outcome.path
  methods : ∀ file, outcome.records = some file → ∀ entry ∈ file.methods, entry.IsOwn
  diagnostics : ∀ diagnostic ∈ outcome.diagnostics, diagnostic.category ≠ .duplicateMethod

variable {module : Module} {decompiler : Decompiler} {banner : Option String} {source : SourceFile}
  {compress : Bytes → Bytes}

theorem category_ofFile {diagnostic : Diagnostic}
    (hdiagnostic : diagnostic ∈ (ofFile module decompiler banner source compress).diagnostics) :
    diagnostic.category ≠ .duplicateMethod := by
  unfold ofFile at hdiagnostic
  split at hdiagnostic
  · unfold FileRecords.ofDecompiled at hdiagnostic
    split at hdiagnostic
    · cases hdiagnostic
    · split at hdiagnostic
      · cases hdiagnostic
      · split at hdiagnostic
        · rw [List.mem_singleton.mp hdiagnostic]
          nofun
        · simp only at hdiagnostic
          split at hdiagnostic
          · rw [List.mem_singleton.mp hdiagnostic]
            nofun
          · simp only [FileRecords.ofFunctions, List.mem_flatMap, List.mem_map] at hdiagnostic
            obtain ⟨_, ⟨function, _, rfl⟩, hdiagnostic⟩ := hdiagnostic
            exact FileRecords.category_ofFunction hdiagnostic
  · rw [List.mem_singleton.mp hdiagnostic]
    nofun

theorem isOwn_ofFile : (ofFile module decompiler banner source compress).IsOwn where
  path file hfile := by
    obtain ⟨decompiled, _, hof⟩ := FileRecords.exists_areOf hfile
    obtain ⟨blob, _, hdocument⟩ := bind_eq_ok_iff.mp hof.document
    rw [← pure_eq_ok_iff.mp hdocument, FileRecords.path_ofFile]
  methods file hfile entry hentry := by
    obtain ⟨decompiled, _, hof⟩ := FileRecords.exists_areOf hfile
    obtain ⟨function, haccepts⟩ := hof.accepts entry hentry
    exact haccepts.isOwn
  diagnostics _ hdiagnostic := category_ofFile hdiagnostic

/-- The functions of a source file that are accepted, with their records, in the order in which
their scopes were found. A function that was found twice is there twice. -/
def accepted (module : Module) (decompiler : Decompiler) (banner : Option String)
    (source : SourceFile) (compress : Bytes → Bytes) : List (DecompiledFunction × MethodRecords) :=
  match decompiler.decompile source.types,
    (ofFile module decompiler banner source compress).records with
  | .ok file, some records =>
    (records.scopes.functions.toList.filterMap file.function?).filterMap fun function =>
      (FileRecords.ofFunction source.path module (FileRecords.sourceOf banner file).1 file
        function).1.map (function, ·)
  | _, _ => []

theorem accepts_of_mem_accepted {function : DecompiledFunction} {entry : MethodRecords}
    (hmem : (function, entry) ∈ accepted module decompiler banner source compress) :
    FileRecords.Accepts module function entry := by
  unfold accepted at hmem
  split at hmem
  · obtain ⟨other, _, hother⟩ := List.mem_filterMap.mp hmem
    obtain ⟨_, hentry, hpair⟩ := Option.map_eq_some_iff.mp hother
    cases hpair
    exact FileRecords.accepts_of_ofFunction hentry
  · cases hmem

/-- The methods of a file are the records of the functions that are accepted. -/
theorem map_accepted :
    (accepted module decompiler banner source compress).map (·.2) =
      (ofFile module decompiler banner source compress).records.elim [] (·.methods) := by
  unfold accepted
  cases hdecompile : decompiler.decompile source.types with
  | error error => simp [ofFile, hdecompile]
  | ok file =>
    cases hrecords : (ofFile module decompiler banner source compress).records with
    | none => rfl
    | some records =>
      simp only [ofFile, hdecompile] at hrecords
      rw [Option.elim_some, (FileRecords.areOf_ofDecompiled hrecords).methods, List.map_filterMap]
      simp only [FileRecords.ofFunctions, Option.map_map, List.filterMap_map]
      congr 1
      funext function
      simp [Function.comp_def]

end FileOutcome

end PortablePdb
