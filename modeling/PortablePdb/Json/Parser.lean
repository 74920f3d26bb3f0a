import PortablePdb.Json.Basic
import PortablePdb.Json.Number

namespace PortablePdb.Json.Parser

/-- The blanks that may stand between the parts of a text. -/
def isSpace (c : Char) : Bool :=
  c == ' ' || c == '\n' || c == '\r' || c == '\t'

/-- The text after its leading blanks. -/
def skipSpace (cs : List Char) : List Char :=
  cs.dropWhile isSpace

/-- The text after a given word. -/
def word (expected : List Char) (cs : List Char) : Option (List Char) :=
  if expected.isPrefixOf cs then some (cs.drop expected.length) else none

/-- The value of a hexadecimal digit of either case. -/
def hexDigit? (c : Char) : Option Nat :=
  if c.isDigit then some (c.toNat - '0'.toNat)
  else if 'a' ≤ c && c ≤ 'f' then some (c.toNat - 'a'.toNat + 10)
  else if 'A' ≤ c && c ≤ 'F' then some (c.toNat - 'A'.toNat + 10)
  else none

/-- The number written as four hexadecimal digits. -/
def unit? : List Char → Option (Nat × List Char)
  | a :: b :: c :: d :: rest => do
    let n := (← hexDigit? a) * 0x1000 + (← hexDigit? b) * 0x100 + (← hexDigit? c) * 0x10 +
      (← hexDigit? d)
    return (n, rest)
  | _ => none

/-- The second half of a surrogate pair, if a text starts with its escape. -/
def lowSurrogate? : List Char → Option (Nat × List Char)
  | '\\' :: 'u' :: rest => (unit? rest).filter fun (n, _) => 0xDC00 ≤ n && n < 0xE000
  | _ => none

/-- The character after a `\u`: one unit, or a high and a low surrogate. A surrogate alone is no
character. -/
def codePoint? (cs : List Char) : Option (Option Char × List Char) := do
  let (high, rest) ← unit? cs
  if high < 0xD800 || 0xE000 ≤ high then return (some (Char.ofNat high), rest)
  if 0xDC00 ≤ high then return (none, rest)
  match lowSurrogate? rest with
  | some (low, rest) =>
    return (some (Char.ofNat (0x10000 + (high - 0xD800) * 0x400 + (low - 0xDC00))), rest)
  | none => return (none, rest)

/-- The character that a letter after a backslash stands for. -/
def escape? (c : Char) : Option Char :=
  match c with
  | '"' => some '"'
  | '\\' => some '\\'
  | '/' => some '/'
  | 'b' => some '\x08'
  | 'f' => some '\x0c'
  | 'n' => some '\n'
  | 'r' => some '\r'
  | 't' => some '\t'
  | _ => none

/-- What stands between quotes: the characters, unless one of them cannot be read, and whether there
are escapes among them. -/
structure Literal where
  text? : Option String
  isEscaped : Bool

/-- The rest of a string after its opening quote; `fuel` bounds the number of characters, and
`done` holds the characters before, last first. -/
def stringRest : (fuel : Nat) → (isReadable isEscaped : Bool) → (done : List Char) → List Char →
    Option (Literal × List Char)
  | 0, _, _, _, _ => none
  | _ + 1, isReadable, isEscaped, done, '"' :: rest =>
    some (⟨if isReadable then some (String.ofList done.reverse) else none, isEscaped⟩, rest)
  | fuel + 1, isReadable, _, done, '\\' :: 'u' :: rest =>
    match codePoint? rest with
    | some (some c, rest) => stringRest fuel isReadable true (c :: done) rest
    | some (none, rest) => stringRest fuel false true done rest
    | none => none
  | fuel + 1, isReadable, _, done, '\\' :: c :: rest =>
    match escape? c with
    | some c => stringRest fuel isReadable true (c :: done) rest
    | none => none
  | fuel + 1, isReadable, isEscaped, done, c :: rest =>
    if c.toNat < 0x20 || c == '\\' then none
    else stringRest fuel isReadable isEscaped (c :: done) rest
  | _ + 1, _, _, _, [] => none

/-- A string after its opening quote. -/
def literal? (fuel : Nat) (cs : List Char) : Option (Literal × List Char) :=
  stringRest fuel true false [] cs

/-- The value that a string stands for. -/
def Literal.value (literal : Literal) : Json :=
  match literal.text? with
  | some text => .string text
  | none => .unreadable

/-- The name that a string stands for. A name that is a number has to stand there as it is: written
with escapes, it gets a backslash, so that it is not taken for a number. -/
def Literal.name? (literal : Literal) : Option String :=
  literal.text?.map fun text =>
    if literal.isEscaped && text.all Char.isDigit then "\\" ++ text else text

/-- The digits at the start of a text, of which there has to be one. -/
def digits? (cs : List Char) : Option (List Char × List Char) :=
  let digits := cs.takeWhile Char.isDigit
  if digits.isEmpty then none else some (digits, cs.dropWhile Char.isDigit)

/-- The digits of a whole number, which has no leading zeros. -/
def whole? : List Char → Option (List Char × List Char)
  | '0' :: rest => if rest.head?.any Char.isDigit then none else some (['0'], rest)
  | cs => digits? cs

/-- The point and digits of a fraction, or nothing. -/
def fraction? : List Char → Option (List Char × List Char)
  | '.' :: rest => (digits? rest).map fun (digits, rest) => ('.' :: digits, rest)
  | cs => some ([], cs)

/-- The sign and the digits of an exponent, or nothing. -/
def exponent? : List Char → Option ((Bool × List Char) × List Char)
  | 'e' :: '+' :: rest | 'E' :: '+' :: rest =>
    (digits? rest).map fun (digits, rest) => ((false, digits), rest)
  | 'e' :: '-' :: rest | 'E' :: '-' :: rest =>
    (digits? rest).map fun (digits, rest) => ((true, digits), rest)
  | 'e' :: rest | 'E' :: rest => (digits? rest).map fun (digits, rest) => ((false, digits), rest)
  | cs => some ((false, []), cs)

/-- A number; only one without fraction and exponent is an integer, and minus zero is none. A number
out of range cannot be read. -/
def number? (cs : List Char) : Option (Json × List Char) := do
  let (isNegative, rest) := match cs with
    | '-' :: rest => (true, rest)
    | _ => (false, cs)
  let (whole, rest) ← whole? rest
  let (fraction, rest) ← fraction? rest
  let ((isSmall, exponent), rest) ← exponent? rest
  let n := natOfDigits whole
  let power : Int := natOfDigits exponent
  if !(Decimal.ofDigits whole (fraction.drop 1) (if isSmall then -power else power)).isFinite then
    return (.unreadable, rest)
  else if fraction.isEmpty && exponent.isEmpty && !(isNegative && n == 0) then
    return (.int (if isNegative then -n else n), rest)
  else
    let sign := if isNegative then ['-'] else []
    let mark := if exponent.isEmpty then [] else if isSmall then ['e', '-'] else ['e']
    return (.decimal (String.ofList (sign ++ whole ++ fraction ++ mark ++ exponent)), rest)

/-- The word for a value at the start of a text: null, or a truth value. -/
def word? : List Char → Option (Json × List Char)
  | 'n' :: rest => (word ['u', 'l', 'l'] rest).map fun rest => (.null, rest)
  | 't' :: rest => (word ['r', 'u', 'e'] rest).map fun rest => (.bool true, rest)
  | 'f' :: rest => (word ['a', 'l', 's', 'e'] rest).map fun rest => (.bool false, rest)
  | _ => none

/-- What may come next where a value is skipped. -/
inductive Expected where
  | value
  /-- An item, or the end of an array. -/
  | item
  | name
  /-- A member, or the end of an object. -/
  | member
  /-- What follows a value. -/
  | separator

/-- Skips the rest of a value; `outer` tells for each level that is open, from the inside out,
whether it is an object. There may be any number of levels. -/
def skip? : (fuel : Nat) → Expected → (outer : List Bool) → List Char → Option (List Char)
  | 0, _, _, _ => none
  | _ + 1, .separator, [], cs => some cs
  | fuel + 1, .separator, isObject :: outer, cs =>
    match skipSpace cs with
    | ',' :: rest => skip? fuel (if isObject then .name else .value) (isObject :: outer) rest
    | ']' :: rest => if isObject then none else skip? fuel .separator outer rest
    | '}' :: rest => if isObject then skip? fuel .separator outer rest else none
    | _ => none
  | fuel + 1, .item, outer, cs =>
    match skipSpace cs with
    | ']' :: rest => skip? fuel .separator (outer.drop 1) rest
    | rest => skip? fuel .value outer rest
  | fuel + 1, .member, outer, cs =>
    match skipSpace cs with
    | '}' :: rest => skip? fuel .separator (outer.drop 1) rest
    | rest => skip? fuel .name outer rest
  | fuel + 1, .name, outer, cs =>
    match skipSpace cs with
    | '"' :: rest =>
      match literal? fuel rest with
      | some (_, rest) =>
        match skipSpace rest with
        | ':' :: rest => skip? fuel .value outer rest
        | _ => none
      | none => none
    | _ => none
  | fuel + 1, .value, outer, cs =>
    match skipSpace cs with
    | '[' :: rest => skip? fuel .item (false :: outer) rest
    | '{' :: rest => skip? fuel .member (true :: outer) rest
    | '"' :: rest =>
      match literal? fuel rest with
      | some (_, rest) => skip? fuel .separator outer rest
      | none => none
    | cs =>
      match (word? cs).or (number? cs) with
      | some (_, rest) => skip? fuel .separator outer rest
      | none => none

mutual

/-- A value with blanks before it; `depth` is the number of levels that it may nest so that it can
be read. An object with a name that cannot be read cannot be read either. -/
def value? : (fuel depth : Nat) → List Char → Option (Json × List Char)
  | 0, _, _ => none
  | fuel + 1, depth, cs =>
    match skipSpace cs with
    | '"' :: rest => (literal? fuel rest).map fun (literal, rest) => (literal.value, rest)
    | '[' :: rest =>
      if depth = 0 then (skip? fuel .item [false] rest).map fun rest => (.unreadable, rest)
      else
        match skipSpace rest with
        | ']' :: rest => some (.array [], rest)
        | rest => (items? fuel (depth - 1) rest).map fun (items, rest) => (.array items, rest)
    | '{' :: rest =>
      if depth = 0 then (skip? fuel .member [true] rest).map fun rest => (.unreadable, rest)
      else
        match skipSpace rest with
        | '}' :: rest => some (.object [], rest)
        | rest =>
          (members? fuel (depth - 1) rest).map fun (members?, rest) =>
            (members?.elim .unreadable .object, rest)
    | cs => (word? cs).or (number? cs)

/-- The items of an array up to its closing bracket; there is at least one. -/
def items? : (fuel depth : Nat) → List Char → Option (List Json × List Char)
  | 0, _, _ => none
  | fuel + 1, depth, cs => do
    let (item, rest) ← value? fuel depth cs
    match skipSpace rest with
    | ']' :: rest => return ([item], rest)
    | ',' :: rest =>
      let (items, rest) ← items? fuel depth rest
      return (item :: items, rest)
    | _ => none

/-- The members of an object up to its closing brace, if all their names can be read; there is at
least one. -/
def members? : (fuel depth : Nat) → List Char →
    Option (Option (List (String × Json)) × List Char)
  | 0, _, _ => none
  | fuel + 1, depth, cs => do
    match skipSpace cs with
    | '"' :: rest =>
      let (literal, rest) ← literal? fuel rest
      match skipSpace rest with
      | ':' :: rest =>
        let (value, rest) ← value? fuel depth rest
        let member? := literal.name?.map fun name => (name, value)
        match skipSpace rest with
        | '}' :: rest => return (member?.map fun member => [member], rest)
        | ',' :: rest =>
          let (members?, rest) ← members? fuel depth rest
          return (member?.bind fun member => members?.map (member :: ·), rest)
        | _ => none
      | _ => none
    | _ => none

end

end Parser

/-- The value that a text holds. Where arrays and objects nest in it more than `depth` deep, they
cannot be read. -/
def parse? (depth : Nat) (text : String) : Option Json :=
  let cs := text.toList
  match Parser.value? (2 * cs.length + 2) depth cs with
  | some (value, rest) => if (Parser.skipSpace rest).isEmpty then some value else none
  | none => none

end PortablePdb.Json
