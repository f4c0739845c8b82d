/-
Peg/Generated/Basic.lean

The code of generated parsers.

A generated parser has a function for each rule and one for each alternative.
The function of a rule is the choice of its alternatives; that of an
alternative matches its items one after the other and keeps what each of them
gave, and where, in variables.  Regular expressions are declared once, ahead
of the alternatives, and numbered in the order in which they are used.

This is the code as a structure.  Where it comes from is in
`Peg/Generated/OfGrammar.lean`, and how it is written in
`Peg/Generated/Print.lean`.
-/
import Peg.Host.Token
import Peg.Host.Identifier
import Peg.Grammar.Basic
import Peg.Regex.Parser

namespace Peg.Generated

open Host

/-! ### Variables -/

/-- An item of a sequence: how many groups it is inside of, and its place in the innermost one. -/
structure Place where
  depth : Nat
  index : Nat
  deriving DecidableEq, Repr

namespace Place

/-- The name of a variable that belongs to an item, given what it begins with outside of groups
and inside. -/
def nameWith (place : Place) (outside inside : String) : String :=
  if place.depth = 0 then outside ++ toString place.index
  else inside ++ toString place.depth ++ "_" ++ toString place.index

/-- The variable for the value of an item. -/
def value (place : Place) : String :=
  place.nameWith "v" "g"

/-- The variable for the offset where an item starts. -/
def start (place : Place) : String :=
  place.nameWith "s" "gs"

/-- The variable for the offset where an item ends. -/
def stop (place : Place) : String :=
  place.nameWith "e" "ge"

end Place

/-! ### Matchers -/

/-- Expressions for matchers. -/
inductive MatcherCode where
  | literal (string : String)
  /-- A declared regular expression, and how failures show it. -/
  | regex (number : Nat) (description : String)
  | any
  | param
  | rule (function : Identifier)
  /-- The text of the item at a place. -/
  | variable (place : Place)
  | template (function : Identifier) (argument : String)
  | negative (inner : MatcherCode)
  | look (inner : MatcherCode)
  | attempt (inner : MatcherCode)
  | backtrack (inner : MatcherCode)
  /-- A function that the host code around the parser provides. -/
  | external (function : Identifier) (inner : MatcherCode)
  /-- The items of a group at some depth, and the indexes of those whose values are kept. -/
  | group (depth : Nat) (items : List MatcherCode) (kept : List Nat)
  | repeated (mode : Repetition) (inner : MatcherCode)

/-! ### Modules -/

/-- The function of an alternative. -/
structure AlternativeCode where
  function : Identifier
  items : List MatcherCode
  /-- The expression for the result, if there is a mapper. -/
  result : Option Tokens

/-- The function of a rule. -/
structure RuleCode where
  function : Identifier
  isTemplate : Bool
  /-- The type of the result. -/
  type : Tokens
  /-- Whether the rule declares no type, so that results are converted to the general one. -/
  isUntyped : Bool
  alternatives : List AlternativeCode

/-- A regular expression to be declared. -/
structure RegexCode where
  source : String
  flags : String
  deriving DecidableEq, Repr

/-- The expression as failures show it. -/
def RegexCode.description (regex : RegexCode) : String :=
  Regex.describe regex.source regex.flags

/-- A generated parser. -/
structure ParserCode where
  /-- The host code that comes first. -/
  pastas : List String
  /-- Whether templates skip the blanks after a match. -/
  templateWhitespace : Bool
  /-- The engine for regular expressions that the code is linked with. -/
  dialect : Regex.Dialect
  regexes : List RegexCode
  rules : List RuleCode

namespace ParserCode

/-- The function that the parser starts with: the first rule that is no template. -/
def entry? (parser : ParserCode) : Option RuleCode :=
  parser.rules.find? fun rule => !rule.isTemplate

end ParserCode

end Peg.Generated
