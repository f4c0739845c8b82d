/-
Peg/Host/Token.lean

Tokens of the host language and how they are printed.

The host language is that of generated parsers.  Its code is a sequence of
token trees: brackets always come in pairs and hold what is between them, so
that nothing after the lexer has to look for a closing bracket.  A punctuation
mark is a single character that may be joint to the next one; an operator of
several characters is a run of joint marks, and so is a lifetime, a quote that
is joint to a name.

Printing puts one blank between tokens that are not joint.  A closing brace
has a blank before it and an opening one after it; other brackets have none on
their inside.
-/
import Peg.Text.Printable

namespace Peg.Host

/-! ### Tokens -/

/-- Kinds of brackets. -/
inductive Delimiter where
  | parenthesis
  | bracket
  | brace
  deriving DecidableEq, Repr

/-- Tokens. -/
inductive TokenTree where
  | word (text : String)
  | mark (symbol : Char) (joint : Bool)
  | literal (text : String)
  | group (delimiter : Delimiter) (inner : List TokenTree)

/-- Sequences of tokens. -/
abbrev Tokens := List TokenTree

namespace Delimiter

/-- The opening bracket. -/
def opening : Delimiter → Char
  | .parenthesis => '('
  | .bracket => '['
  | .brace => '\x7b'

/-- The closing bracket. -/
def closing : Delimiter → Char
  | .parenthesis => ')'
  | .bracket => ']'
  | .brace => '\x7d'

/-- Printed code between the brackets. -/
def enclose (delimiter : Delimiter) (inner : String) : String :=
  match delimiter with
  | .parenthesis => "(" ++ inner ++ ")"
  | .bracket => "[" ++ inner ++ "]"
  | .brace => if inner.isEmpty then "\x7b \x7d" else "\x7b " ++ inner ++ " \x7d"

end Delimiter

/-- The marks of an operator: each joint to the next one, the last one not. -/
def operator : List Char → List TokenTree
  | [] => []
  | [symbol] => [.mark symbol false]
  | symbol :: symbols => .mark symbol true :: operator symbols

/-! ### Printing -/

/-- Whether a token is printed without a blank after it. -/
def TokenTree.isJoint : TokenTree → Bool
  | .mark _ joint => joint
  | _ => false

mutual

/-- A token as it is printed. -/
def TokenTree.print : TokenTree → String
  | .word text => text
  | .mark symbol _ => symbol.toString
  | .literal text => text
  | .group delimiter inner => delimiter.enclose (printAll inner)

/-- Tokens as they are printed. -/
def printAll : List TokenTree → String
  | [] => ""
  | [token] => token.print
  | token :: tokens => token.print ++ (if token.isJoint then "" else " ") ++ printAll tokens

end

mutual

/-- The number of tokens in a tree. -/
def TokenTree.size : TokenTree → Nat
  | .group _ inner => sizeOfAll inner + 1
  | _ => 1

/-- The number of tokens in several trees. -/
def sizeOfAll : List TokenTree → Nat
  | [] => 0
  | token :: tokens => token.size + sizeOfAll tokens

end

mutual

/-- Whether two tokens are the same. -/
def TokenTree.same : TokenTree → TokenTree → Bool
  | .word text, .word other => text == other
  | .mark symbol joint, .mark other joint' => symbol == other && joint == joint'
  | .literal text, .literal other => text == other
  | .group delimiter inner, .group other inner' => delimiter == other && sameTokens inner inner'
  | _, _ => false

/-- Whether two sequences of tokens are the same. -/
def sameTokens : List TokenTree → List TokenTree → Bool
  | [], [] => true
  | token :: tokens, other :: others => token.same other && sameTokens tokens others
  | _, _ => false

end

/-! ### String literals -/

/-- The hexadecimal digits of a number, without leading zeros. -/
def hexDigits (number : Nat) : List Char :=
  Nat.toDigits 16 number

/-- A character inside a string literal; `next` is the character after it. -/
def escapeHostChar (c : Char) (next : Option Char) : List Char :=
  match c with
  | '"' => ['\\', '"']
  | '\\' => ['\\', '\\']
  | '\n' => ['\\', 'n']
  | '\r' => ['\\', 'r']
  | '\t' => ['\\', 't']
  | '\x00' =>
    if next.any fun next => '0' ≤ next && next ≤ '7' then ['\\', 'x', '0', '0'] else ['\\', '0']
  | c =>
    if Text.isPrintable c then [c] else "\\u\x7b".toList ++ hexDigits c.toNat ++ ['\x7d']

/-- The inside of a string literal. -/
def escapeHostText : List Char → List Char
  | [] => []
  | c :: cs => escapeHostChar c cs.head? ++ escapeHostText cs

/-- A text as a string literal. -/
def quote (text : String) : String :=
  String.ofList ('"' :: escapeHostText text.toList ++ ['"'])

end Peg.Host
