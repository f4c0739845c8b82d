/-
Peg/Sample/Locals.lean

Rules that are called like the variables of generated code.
-/
import Peg.Sample.Basic

namespace Peg.Sample.Locals

/-- The grammar. -/
def source : String :=
  "-- Rules named like the locals of generated functions
top = start end input param next ;

start = 'a' ;
end = 'b' ;
input = 'c' ;
param = 'd' ;

next = 'e' %% text()
    ;
"

/-! ### Rules -/

def start : Matching Value :=
  alternative [literal "a"]

def stop : Matching Value :=
  alternative [literal "b"]

def input : Matching Value :=
  alternative [literal "c"]

def param : Matching Value :=
  alternative [literal "d"]

def next : Matching Value :=
  textOf (sequence [literal "e"])

/-- All rules in a row. -/
def top : Matching Value :=
  alternative [start, stop, input, param, next]

/-- The row at the beginning of a text. -/
def parse (text : List Char) : Run Value :=
  top text 0

end Peg.Sample.Locals
