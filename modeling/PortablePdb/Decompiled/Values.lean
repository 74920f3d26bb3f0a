import PortablePdb.CustomInfo.Stepping
import PortablePdb.Json.Decode
import PortablePdb.Metadata.Token
import PortablePdb.SequencePoints.Basic
import PortablePdb.Text.Numeral

namespace PortablePdb

namespace Token

/-- A token is written as its text. -/
def toJson (token : Token) : Json :=
  .string token.toText

/-- The token that a text stands for: a hexadecimal numeral after `0x`, or a decimal one. -/
def ofText? (text : String) : Option Token :=
  let number? := match text.toList with
    | '0' :: 'x' :: digits | '0' :: 'X' :: digits => Text.Numeral.read? 16 0x100000000 digits
    | digits => Text.Numeral.read? 10 0x100000000 digits
  number?.map fun n => ⟨n.toUInt32⟩

/-- A token may be read from its text or from its number. -/
def ofJson? : Json → Option Token
  | .string text => ofText? text
  | json => (Json.word32? json).map Token.mk

end Token

namespace SequencePoint

/-- The names of the fields of a point. -/
def fieldNames : List String :=
  ["il_offset", "is_hidden", "start_line", "start_column", "end_line", "end_column", "document"]

/-- The document is left out where it is the method's own. -/
def toJson (point : SequencePoint) : Json :=
  .object <|
    [("il_offset", .nat point.offset.toNat), ("is_hidden", .bool point.isHidden),
      ("start_line", .nat point.startLine.toNat), ("start_column", .nat point.startColumn.toNat),
      ("end_line", .nat point.endLine.toNat), ("end_column", .nat point.endColumn.toNat)] ++
    if point.document = 0 then [] else [("document", .nat point.document.toNat)]

/-- Only the offset has to be there. -/
def ofJson? (json : Json) : Option SequencePoint := do
  let fields ← json.fields? fieldNames
  return {
    offset := ← Json.required fields "il_offset" Json.word32?
    isHidden := ← Json.optional fields "is_hidden" Json.bool? false
    startLine := ← Json.optional fields "start_line" Json.word32? 0
    startColumn := ← Json.optional fields "start_column" Json.word16? 0
    endLine := ← Json.optional fields "end_line" Json.word32? 0
    endColumn := ← Json.optional fields "end_column" Json.word16? 0
    document := ← Json.optional fields "document" Json.word32? 0 }

end SequencePoint

namespace Await

/-- All fields are written. -/
def toJson (await : Await) : Json :=
  .object
    [("yield_offset", .nat await.yieldOffset.toNat),
      ("resume_offset", .nat await.resumeOffset.toNat),
      ("resume_method", await.resumeMethod.toJson)]

/-- Without a method, an await resumes in its own one. -/
def ofJson? (json : Json) : Option Await := do
  let fields ← json.fields? ["yield_offset", "resume_offset", "resume_method"]
  return {
    yieldOffset := ← Json.required fields "yield_offset" Json.word32?
    resumeOffset := ← Json.required fields "resume_offset" Json.word32?
    resumeMethod := ← Json.optional fields "resume_method" Token.ofJson? ⟨0⟩ }

end Await

namespace AsyncStepping

/-- All fields are written; a missing handler is null. -/
def toJson (stepping : AsyncStepping) : Json :=
  .object
    [("catch_handler_offset", Json.ofOption (fun n => .nat n.toNat) stepping.catchHandler),
      ("awaits", Json.ofList Await.toJson stepping.awaits)]

/-- No field has to be there. -/
def ofJson? (json : Json) : Option AsyncStepping := do
  let fields ← json.fields? ["catch_handler_offset", "awaits"]
  return {
    catchHandler :=
      ← Json.optional fields "catch_handler_offset" (Json.nullable? Json.word32?) none
    awaits := ← Json.optional fields "awaits" (Json.list? Await.ofJson?) [] }

end AsyncStepping

end PortablePdb
