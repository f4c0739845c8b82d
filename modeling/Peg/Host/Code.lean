/-
Peg/Host/Code.lean

Host code in a grammar: expressions, types and modules.

`find` closes the recursion of the recognizers.  Each goal reads at least one
token before it comes back to itself, after a few others at most, so that fuel
in proportion to the number of tokens is never used up.

A text is code of one of the three kinds if it is made of tokens that the
recognizer of this kind reads to the end; expressions and types are then
printed in the form that all generated code has.
-/
import Peg.Host.Item
import Peg.Host.Lexer

namespace Peg.Host

open Recognizer

/-- The reader of a goal, given the readers of the goals that are part of it. -/
def readerOf (recur : Recur) : Goal → Recognizer Found
  | .expression allowStruct => expression recur allowStruct
  | .unary allowStruct => unary recur allowStruct
  | .operators allowStruct least operand shape =>
    operators recur allowStruct least ⟨operand, shape⟩
  | .operand allowStruct precedence => do
    let operand ← recur (.unary allowStruct)
    recur (.moreOperand allowStruct precedence operand.tokens operand.shape)
  | .moreOperand allowStruct precedence operand shape =>
    moreOperand recur allowStruct precedence ⟨operand, shape⟩
  | .early => earlyExpression recur
  | .block => plain (block recur)
  | .type allowPlus => plain (type recur allowPlus)
  | .pattern alternatives => plain (pattern recur alternatives)
  | .item => plain (item recur)
  | .useTree => plain (useTree recur)
where
  plain (reader : Recognizer Tokens) : Recognizer Found := do
    return ⟨← reader, .other⟩

/-- The reader of each goal, for goals that are part of each other at most as deep as the fuel. -/
def find : (fuel : Nat) → Recur
  | 0 => fun _ => failure
  | fuel + 1 => readerOf (find fuel)

/-- The tokens of a text as a recognizer reads them, if it reads them to the end. -/
def recognize? (reader : Recur → Recognizer Tokens) (text : List Char) : Option Tokens :=
  (lex? text).bind fun tokens => complete (reader (find (8 * sizeOfAll tokens + 32))) tokens

/-- The tokens of an expression. -/
def expression? (text : List Char) : Option Tokens :=
  recognize? (·.tokens (.expression true)) text

/-- The tokens of a type. -/
def type? (text : List Char) : Option Tokens :=
  recognize? (·.tokens (.type true)) text

/-- The text without a first line that names the program to run it with. -/
def withoutInterpreterLine (text : List Char) : List Char :=
  match text with
  | '#' :: '!' :: rest =>
    if (skipTrivia (rest.length + 1) rest).head? == some '[' then text
    else rest.dropWhile (· != '\n')
  | text => text

/-- Whether a text is the content of a module. -/
def isModule (text : List Char) : Bool :=
  (recognize? moduleContent (withoutInterpreterLine (withoutByteOrderMark text))).isSome

end Peg.Host
