/-
Peg/Sample/Sums.lean

Sums of integers.

The rules for numbers and sums have integers for values.  A number that is too
large for one counts as zero.
-/
import Peg.Sample.Basic

namespace Peg.Sample.Sums

/-- The grammar. -/
def source : String :=
  "%\x7b
fn number(text: &str) -> i64 \x7b
    text.parse().unwrap_or_default()
\x7d
\x7d%

-- Sums of integers
sum: i64 = number plus* %% $0 + $1.into_iter().sum::<i64>()
    ;

plus: i64 = `+` number %% $1
    ;

number: i64 = /[0-9]+/ ws %% number(&$0)
    ;

ws = /\\s*/ ;

`lexeme` = lexeme ;
"

/-! ### Expressions -/

def digits : Expression :=
  .of "[0-9]+"

def blanks : Expression :=
  .of "\\s*"

/-- The integer that digits stand for, zero if it is too large. -/
def integerOf (text : String) : Int64 :=
  match Text.numberOf? 10 text.toList with
  | some number => if number ≤ Int64.maxValue.toInt.toNat then Int64.ofNat number else 0
  | none => 0

/-! ### Rules -/

/-- The default template. -/
def template (param : String) : Matching Value :=
  Sample.lexeme (alternative [literal param])

/-- Any number of blanks. -/
def ws : Matching Value :=
  alternative [regex blanks]

/-- Digits and the blanks after them. -/
def number : Matching Int64 := fun input start =>
  Run.andThen (regex digits input start) fun value stop =>
    (ws input stop).mapValue fun _ => integerOf value.text

/-- A plus sign and a number. -/
def plus : Matching Int64 := fun input start =>
  Run.andThen (template "+" input start) fun _ stop => number input stop

/-- Numbers with plus signs between them. -/
def sum : Matching Int64 := fun input start =>
  Run.andThen (number input start) fun first stop =>
    (Combinator.many (attempts input) plus input stop).mapValue fun others =>
      first + others.foldl (· + ·) 0

/-- A sum at the beginning of a text. -/
def parse (input : List Char) : Run Int64 :=
  sum input 0

end Peg.Sample.Sums
