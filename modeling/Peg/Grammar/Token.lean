/-
Peg/Grammar/Token.lean

The written forms of the tokens of a grammar: literals between quotes,
regular expressions between slashes, numbered variables, and the text of a
mapper, which may go over several lines.

Each form comes as an encoder and a decoder.  The decoders take any text, not
only what the encoders produce, and leave alone what they do not know: an
unknown escape keeps its backslash.
-/
import Peg.Text.Basic
import Peg.Text.Blank

namespace Peg.Token

open Text

/-! ### Literals -/

/-- Resolve the escapes of a literal. -/
def resolveEscapes : List Char → List Char
  | [] => []
  | ['\\'] => ['\\']
  | '\\' :: c :: cs =>
    match c with
    | '\'' => '\'' :: resolveEscapes cs
    | '\\' => '\\' :: resolveEscapes cs
    | 'n' => '\n' :: resolveEscapes cs
    | 'r' => '\r' :: resolveEscapes cs
    | 't' => '\t' :: resolveEscapes cs
    | other => '\\' :: other :: resolveEscapes cs
  | c :: cs => c :: resolveEscapes cs

/-- The inside of a quoted token, or the whole token if a quote is missing. -/
def unquote (token : List Char) : List Char :=
  match token with
  | '\'' :: inner => if inner.getLast? = some '\'' then inner.dropLast else token
  | _ => token

/-- The text that a literal token stands for. -/
def decodeLiteral (token : String) : String :=
  String.ofList (resolveEscapes (unquote token.toList))

/-- A character inside a literal. -/
def escapeChar : Char → List Char
  | '\'' => ['\\', '\'']
  | '\\' => ['\\', '\\']
  | '\n' => ['\\', 'n']
  | '\r' => ['\\', 'r']
  | '\t' => ['\\', 't']
  | c => [c]

/-- The literal token for a text. -/
def encodeLiteral (string : String) : String :=
  String.ofList ('\'' :: string.toList.flatMap escapeChar ++ ['\''])

/-! ### Regular expressions -/

/-- Take the backslashes from before slashes. -/
def plainSlashes : List Char → List Char
  | [] => []
  | ['\\'] => ['\\']
  | '\\' :: c :: cs => if c = '/' then '/' :: plainSlashes cs else '\\' :: c :: plainSlashes cs
  | c :: cs => c :: plainSlashes cs

/-- Cut a text at the last occurrence of a character, which is dropped. -/
def cutAtLast (separator : Char) (cs : List Char) : Option (List Char × List Char) :=
  let after := (cs.reverse.takeWhile (· != separator)).reverse
  if after.length < cs.length then some (cs.take (cs.length - after.length - 1), after) else none

/-- The source and the flags of a regular expression token: the last slash ends the source. -/
def decodeRegex (token : String) : String × String :=
  let body := match token.toList with
    | '/' :: body => body
    | body => body
  match cutAtLast '/' body with
  | some (inner, flags) => (String.ofList (plainSlashes inner), String.ofList flags)
  | none => (String.ofList (plainSlashes body), "")

/-- Put backslashes before bare slashes, and write line feeds as escapes. -/
def escapeSlashes : List Char → List Char
  | [] => []
  | ['\\'] => ['\\']
  | '\\' :: c :: cs => '\\' :: c :: escapeSlashes cs
  | '/' :: cs => '\\' :: '/' :: escapeSlashes cs
  | '\n' :: cs => '\\' :: 'n' :: escapeSlashes cs
  | c :: cs => c :: escapeSlashes cs

/-- The token for a regular expression. -/
def encodeRegex (source flags : String) : String :=
  String.ofList ('/' :: escapeSlashes source.toList ++ '/' :: flags.toList)

/-! ### Variables -/

/-- The value of decimal digits, if there are some and their value fits a machine word. -/
def parseIndex? (digits : List Char) : Option Nat :=
  (numberOf? 10 digits).filter (· < UInt64.size)

/-- The index of a variable token; a plus sign may stand before the digits. -/
def decodeVariable? (token : String) : Option Nat :=
  match token.toList with
  | '$' :: '+' :: digits => parseIndex? digits
  | '$' :: digits => parseIndex? digits
  | _ => none

/-- The token for a variable. -/
def encodeVariable (index : Nat) : String :=
  "$" ++ toString index

/-! ### Mappers -/

/-- The lines of a mapper, trimmed, without those that are blank. -/
def normalizeMapper (code : String) : String :=
  let lines := ((splitOn '\n' code.toList).map trim).filter (!·.isEmpty)
  String.ofList (joinWith ['\n'] lines)

/-- The text of a mapper with its later lines indented. -/
def indentMapper (code : String) : String :=
  String.ofList (code.toList.flatMap fun c => if c = '\n' then "\n        ".toList else [c])

end Peg.Token
