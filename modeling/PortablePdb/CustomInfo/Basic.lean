import PortablePdb.Guid

namespace PortablePdb

/-- The kinds of custom debug information. -/
inductive CustomKind where
  | embeddedSource
  | hoistedLocalScopes
  | asyncStepping
  | sourceLink
  | compilationMetadata
  | compilationOptions
  | unknown (guid : Guid)
  deriving DecidableEq, Repr

namespace CustomKind

/-- The kinds that the library knows. -/
def known : List CustomKind :=
  [.embeddedSource, .hoistedLocalScopes, .asyncStepping, .sourceLink, .compilationMetadata,
    .compilationOptions]

/-- The identifier of a kind. -/
def guid : CustomKind → Guid
  | .embeddedSource => .ofGroups 0x0E8A571B 0x6926 0x466E 0xB4AD8AB04611F5FE
  | .hoistedLocalScopes => .ofGroups 0x6DA9A61E 0xF8C7 0x4874 0xBE6268BC5630DF71
  | .asyncStepping => .ofGroups 0x54FD2AC5 0xE925 0x401A 0x9C2AF94F171072F8
  | .sourceLink => .ofGroups 0xCC110556 0xA091 0x4D38 0x9FEC25AB9A351A6A
  | .compilationMetadata => .ofGroups 0xB5FEEC05 0x8CD0 0x4A83 0x96DA466284BB4BD8
  | .compilationOptions => .ofGroups 0xB1C2ABE1 0x8BF0 0x497A 0xA9B102FA8571E544
  | .unknown guid => guid

/-- The kind with an identifier. -/
def ofGuid (guid : Guid) : CustomKind :=
  (known.find? (·.guid == guid)).getD (.unknown guid)

/-- The name of a kind; an unknown one goes by its identifier. -/
def name : CustomKind → String
  | .embeddedSource => "EmbeddedSource"
  | .hoistedLocalScopes => "StateMachineHoistedLocalScopes"
  | .asyncStepping => "AsyncMethodSteppingInformation"
  | .sourceLink => "SourceLink"
  | .compilationMetadata => "CompilationMetadata"
  | .compilationOptions => "CompilationOptions"
  | .unknown guid => guid.toText

end CustomKind

end PortablePdb
