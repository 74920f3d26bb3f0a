import PortablePdb.CustomInfo.Blob
import PortablePdb.Digest.Sha256

namespace PortablePdb

/-- The algorithm of the digests of documents. -/
def sha256Algorithm : Guid :=
  .ofGroups 0x8829D00F 0x11B8 0x4213 0x878B770E8597AC16

/-- The language of decompiled documents. -/
def csharpLanguage : Guid :=
  .ofGroups 0x3F5162F8 0x07C6 0x11D3 0x905300C04FA302A1

/-- A document with the digest of its text and the blob that embeds the text. -/
structure SourceDocument where
  path : String
  hash : Vector UInt8 32
  embedded : Bytes
  deriving DecidableEq, Repr

/-- The document of a text. -/
def SourceDocument.ofText (path text : String) (compress : Bytes → Bytes := Deflate.deflate) :
    Except Error SourceDocument := do
  return ⟨path, Sha256.digest (Bytes.ofText text), ← CustomInfo.encodeSource text compress⟩

end PortablePdb
