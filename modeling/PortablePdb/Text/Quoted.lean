import PortablePdb.Text.Hex
import PortablePdb.Text.Printable

namespace PortablePdb.Text.Quoted

/-- The escape of one character; a character without a glyph is shown by its code point. -/
def escape (c : Char) : List Char :=
  match c with
  | '\x00' => ['\\', '0']
  | '\t' => ['\\', 't']
  | '\r' => ['\\', 'r']
  | '\n' => ['\\', 'n']
  | '"' => ['\\', '"']
  | '\\' => ['\\', '\\']
  | c =>
    if isPrintable c then [c]
    else ['\\', 'u', '{'] ++ (Hex.ofNat c.toNat).toList ++ ['}']

/-- A text in double quotes. -/
def quote (text : String) : String :=
  String.ofList (['"'] ++ text.toList.flatMap escape ++ ['"'])

end PortablePdb.Text.Quoted
