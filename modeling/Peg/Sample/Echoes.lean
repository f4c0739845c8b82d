/-
Peg/Sample/Echoes.lean

Texts that are matched twice.
-/
import Peg.Sample.Basic

namespace Peg.Sample.Echoes

/-- The grammar. -/
def source : String :=
  "pair = `x` $0 %% text()
    ;

twice = word ' ' $0 ;
word = /[a-z]+/ ;

`k` = k ;
"

def letters : Expression :=
  .of "[a-z]+"

/-- The text of an earlier item. -/
def echo (index : Nat) (values : List Value) : Matching Value :=
  literal ((values[index]?.map Value.text).getD "")

/-! ### Rules -/

/-- The default template. -/
def template (param : String) : Matching Value :=
  lexeme (alternative [literal param])

/-- Small letters. -/
def word : Matching Value :=
  alternative [regex letters]

/-- A word, a blank and the same word. -/
def twice : Matching Value := fun input start =>
  (Combinator.sequence [fun _ => word, fun _ => literal " ", echo 0] [] input start).mapValue
    Value.ofItems

/-- The same letter twice, with blanks between. -/
def pair : Matching Value :=
  textOf (Combinator.sequence [fun _ => template "x", echo 0] [])

/-- A pair at the beginning of a text. -/
def parse (input : List Char) : Run Value :=
  pair input 0

end Peg.Sample.Echoes
