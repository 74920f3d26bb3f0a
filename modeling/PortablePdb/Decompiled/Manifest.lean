import PortablePdb.Decompiled.File
import PortablePdb.Error
import PortablePdb.Json.Parser

namespace PortablePdb

/-- What gives the files for the types of a module. -/
structure Decompiler where
  /-- The file for some types. -/
  decompile : List Token → Except Error DecompiledFile
  /-- Whether a type is left out of debug data. -/
  isHidden : Token → Bool

/-- A file of a manifest, with the types that it is for. -/
structure ManifestEntry where
  types : List Token
  file : DecompiledFile
  deriving Inhabited

/-- Decompiled files and hidden types. -/
structure Manifest where
  hidden : List Token := []
  files : List ManifestEntry := []
  deriving Inhabited

namespace ManifestEntry

/-- All fields are written. -/
def toJson (entry : ManifestEntry) : Json :=
  .object [("types", Json.ofList Token.toJson entry.types), ("file", entry.file.toJson)]

/-- Both fields have to be there. -/
def ofJson? (json : Json) : Option ManifestEntry := do
  let fields ← json.fields? ["types", "file"]
  return {
    types := ← Json.required fields "types" (Json.list? Token.ofJson?)
    file := ← Json.required fields "file" DecompiledFile.ofJson? }

end ManifestEntry

namespace Manifest

/-- All fields are written. -/
def toJson (manifest : Manifest) : Json :=
  .object
    [("hidden", Json.ofList Token.toJson manifest.hidden),
      ("files", Json.ofList ManifestEntry.toJson manifest.files)]

/-- No field has to be there. -/
def ofJson? (json : Json) : Option Manifest := do
  let fields ← json.fields? ["hidden", "files"]
  return {
    hidden := ← Json.optional fields "hidden" (Json.list? Token.ofJson?) []
    files := ← Json.optional fields "files" (Json.list? ManifestEntry.ofJson?) [] }

/-- The number of levels that a manifest may nest. -/
def maxDepth : Nat := 127

/-- The manifest that a text holds. -/
def parse (text : String) : Except Error Manifest :=
  match (Json.parse? maxDepth text).bind ofJson? with
  | some manifest => .ok manifest
  | none => .error .json

/-- Whether two lists hold the same types. -/
def sameTypes (a b : List Token) : Bool :=
  a.all b.contains && b.all a.contains

/-- The first file for exactly the given types, in whatever order. -/
def fileFor (manifest : Manifest) (types : List Token) : Except Error DecompiledFile :=
  match manifest.files.find? fun entry => sameTypes entry.types types with
  | some entry => .ok entry.file
  | none =>
    let names := ", ".intercalate (types.map Token.toText)
    .error (.decompiler s!"Manifest has no file for types [{names}]")

/-- The decompiler that answers from a manifest. -/
def decompiler (manifest : Manifest) : Decompiler where
  decompile := manifest.fileFor
  isHidden := manifest.hidden.contains

end Manifest

end PortablePdb
