/-
Peg/Sample/Lists.lean

Lists of keywords, words, numbers and strings.
-/
import Peg.Sample.Basic

namespace Peg.Sample.Lists

/-- The grammar. -/
def source : String :=
  "-- Lists of keywords, words, numbers and strings
list = '[' ws items? ']' ws ;
items = item (',' ws !item)* ;

item = kw`nil`
    | try(bang)
    | number
    | word
    | quoted ;

bang = word '!' ;

word = look(/[a-z]/) not(/[^a-z]/)+ ws %% text()
    ;

number = /[0-9]+/ look(backtrack(/[0-9]/)) ws ;
quoted = '\"' not('\"')* '\"' ws ;

kw`k` = k ;
ws = /\\s*/ ;
"

/-! ### Expressions -/

def letter : Expression :=
  .of "[a-z]"

def otherThanLetter : Expression :=
  .of "[^a-z]"

def digits : Expression :=
  .of "[0-9]+"

def digit : Expression :=
  .of "[0-9]"

def blanks : Expression :=
  .of "\\s*"

/-! ### Rules -/

/-- The template of keywords. -/
def keyword (param : String) : Matching Value :=
  lexeme (alternative [literal param])

/-- Any number of blanks. -/
def ws : Matching Value :=
  alternative [regex blanks]

/-- Anything in quotes. -/
def quoted : Matching Value :=
  alternative [literal "\"", many (negative (literal "\"")), literal "\"", ws]

/-- Digits; their last one is looked at again from behind. -/
def number : Matching Value :=
  alternative [regex digits, Combinator.look (Combinator.backtrack (regex digit)), ws]

/-- Letters, with the blanks after them. -/
def word : Matching Value :=
  textOf (sequence [Combinator.look (regex letter), many1 (negative (regex otherThanLetter)), ws])

/-- A word with a mark after it. -/
def bang : Matching Value :=
  alternative [word, literal "!"]

/-- A keyword, a word with a mark, a number, a word or a string. -/
def item : Matching Value :=
  Combinator.choice
    [alternative [keyword "nil"], alternative [Combinator.attempt bang], alternative [number],
      alternative [word], alternative [quoted]]

/-- Items with commas between them. -/
def items : Matching Value :=
  alternative [item, many (group [literal ",", ws, item] [2])]

/-- A list in brackets. -/
def list : Matching Value :=
  alternative [literal "[", ws, optional items, literal "]", ws]

/-- A list at the beginning of a text. -/
def parse (input : List Char) : Run Value :=
  list input 0

end Peg.Sample.Lists
