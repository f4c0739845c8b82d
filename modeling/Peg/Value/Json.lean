/-
Peg/Value/Json.lean

Values as JSON text.

Lists and tuples are arrays, nothing is `null`, and a node is an object with
its kind, its span and its children, in this order.  The compact form has no
blanks; the indented one puts every element on a line of its own, two blanks
deeper than what it is in, except that what is empty stays on its line.
-/
import Peg.Value

namespace Peg.Json

/-! ### Texts -/

/-- A digit of a hexadecimal escape. -/
def hexDigitChar (digit : Nat) : Char :=
  if digit < 10 then Char.ofNat ('0'.toNat + digit) else Char.ofNat ('a'.toNat + digit - 10)

/-- A character inside a JSON text. -/
def escapeJsonChar (c : Char) : List Char :=
  match c with
  | '"' => ['\\', '"']
  | '\\' => ['\\', '\\']
  | '\n' => ['\\', 'n']
  | '\r' => ['\\', 'r']
  | '\t' => ['\\', 't']
  | '\x08' => ['\\', 'b']
  | '\x0c' => ['\\', 'f']
  | c =>
    if c.toNat < 0x20 then
      ['\\', 'u', '0', '0', hexDigitChar (c.toNat / 16), hexDigitChar (c.toNat % 16)]
    else [c]

/-- A text between quotes. -/
def quote (text : String) : String :=
  String.ofList ('"' :: text.toList.flatMap escapeJsonChar ++ ['"'])

/-! ### Documents -/

/-- JSON documents as far as values need them; the fields of objects keep their order. -/
inductive Document where
  | null
  | number (value : Nat)
  | string (text : String)
  | array (items : List Document)
  | object (fields : List (String × Document))

/-- The document of a span. -/
def ofSpan (span : Span) : Document :=
  .object [("start", .number span.start), ("end", .number span.stop)]

mutual

/-- The document of a value. -/
def ofValue : Value → Document
  | .absent => .null
  | .str text => .string text
  | .int number => .number number
  | .list items => .array (ofValues items)
  | .tuple items => .array (ofValues items)
  | .node kind span children =>
    .object [("kind", .string kind), ("span", ofSpan span),
      ("children", .array (ofValues children))]

/-- The documents of several values. -/
def ofValues : List Value → List Document
  | [] => []
  | value :: values => ofValue value :: ofValues values

end

/-- Texts between brackets, separated by commas. -/
def enclose (opening closing : String) (parts : List String) : String :=
  opening ++ ",".intercalate parts ++ closing

/-- Texts between brackets, each on a line of its own below a depth. -/
def encloseLines (depth : Nat) (opening closing : String) (parts : List String) : String :=
  if parts.isEmpty then opening ++ closing
  else
    let margin (depth : Nat) := "\n" ++ String.ofList (List.replicate (2 * depth) ' ')
    opening ++ margin (depth + 1) ++ ("," ++ margin (depth + 1)).intercalate parts
      ++ margin depth ++ closing

mutual

/-- A document without blanks. -/
def compact : Document → String
  | .null => "null"
  | .number value => toString value
  | .string text => quote text
  | .array items => enclose "[" "]" (compactAll items)
  | .object fields => enclose "\x7b" "\x7d" (compactFields fields)

/-- Several documents without blanks. -/
def compactAll : List Document → List String
  | [] => []
  | item :: items => compact item :: compactAll items

/-- The fields of an object without blanks. -/
def compactFields : List (String × Document) → List String
  | [] => []
  | (name, value) :: fields => (quote name ++ ":" ++ compact value) :: compactFields fields

end

mutual

/-- A document on indented lines, at a depth. -/
def indented (depth : Nat) : Document → String
  | .null => "null"
  | .number value => toString value
  | .string text => quote text
  | .array items => encloseLines depth "[" "]" (indentedAll (depth + 1) items)
  | .object fields => encloseLines depth "\x7b" "\x7d" (indentedFields (depth + 1) fields)

/-- Several documents on indented lines. -/
def indentedAll (depth : Nat) : List Document → List String
  | [] => []
  | item :: items => indented depth item :: indentedAll depth items

/-- The fields of an object on indented lines. -/
def indentedFields (depth : Nat) : List (String × Document) → List String
  | [] => []
  | (name, value) :: fields =>
    (quote name ++ ": " ++ indented depth value) :: indentedFields depth fields

end

end Peg.Json
