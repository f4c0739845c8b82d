/-
Peg/Grammar/Basic.lean

Grammars as they are written.

A grammar is a list of rules and of pasta blocks, host code that is passed
through to generated parsers.  A rule is simple or a template; a template has
a parameter that stands for a literal, and at most one template per grammar
goes without a name.  Spans tell where each part was read from, and nothing
but diagnostics depends on them.
-/
import Peg.Text.Span

namespace Peg

/-- How often a pattern may match. -/
inductive Repetition where
  /-- `?` -/
  | optional
  /-- `*` -/
  | any
  /-- `+` -/
  | oneOrMore
  deriving DecidableEq, Repr

namespace Repetition

/-- The symbol written after the pattern. -/
def symbol : Repetition → Char
  | .optional => '?'
  | .any => '*'
  | .oneOrMore => '+'

/-- The repetition a symbol stands for. -/
def ofSymbol? : Char → Option Repetition
  | '?' => some .optional
  | '*' => some .any
  | '+' => some .oneOrMore
  | _ => none

end Repetition

/-! ### Patterns -/

mutual

/-- Patterns. -/
inductive Pattern where
  /-- An exact text, its escapes resolved. -/
  | literal (string : String) (span : Span)
  | regex (source flags : String) (span : Span)
  /-- Any one character. -/
  | any (span : Span)
  /-- A rule, or the parameter of the enclosing template. -/
  | name (name : String) (span : Span)
  /-- What an earlier item of the same sequence matched. -/
  | variable (index : Nat) (span : Span)
  /-- A template, the nameless one if no function is given, instantiated with a literal. -/
  | template (function : Option String) (body : String) (span : Span)
  | apply (function : String) (pattern : Pattern) (span : Span)
  | group (items : List GroupItem) (span : Span)

/-- A member of a group.  As soon as one member is important, only the important ones are kept. -/
inductive GroupItem where
  | mk (important : Bool) (pattern : Pattern) (repetition : Option Repetition) (span : Span)

end

/-- Where a pattern was read from. -/
def Pattern.span : Pattern → Span
  | .literal _ span | .regex _ _ span | .any span | .name _ span | .variable _ span
  | .template _ _ span | .apply _ _ span | .group _ span => span

/-- A member of a sequence: a pattern that may be repeated. -/
structure Item where
  pattern : Pattern
  repetition : Option Repetition
  span : Span

namespace GroupItem

def important : GroupItem → Bool
  | .mk important _ _ _ => important

/-- The member without its mark. -/
def item : GroupItem → Item
  | .mk _ pattern repetition span => ⟨pattern, repetition, span⟩

/-- A member of a sequence put into a group. -/
def ofItem (important : Bool) (item : Item) : GroupItem :=
  .mk important item.pattern item.repetition item.span

end GroupItem

/-! ### Rules -/

/-- The text of the expression that computes the result of an alternative. -/
structure MapperCode where
  code : String
  span : Span

/-- A sequence of patterns, and how its result is computed. -/
structure Alternative where
  items : List Item
  mapper : Option MapperCode
  span : Span

/-- What a rule is declared as. -/
inductive RuleHead where
  | simple (name : String)
  | template (name : Option String) (param : String)
  deriving DecidableEq, Repr

namespace RuleHead

/-- The name, which the default template goes without. -/
def name? : RuleHead → Option String
  | .simple name => some name
  | .template name _ => name

/-- The name of a simple rule. -/
def simpleName? : RuleHead → Option String
  | .simple name => some name
  | .template _ _ => none

/-- The name of the parameter of a template. -/
def param? : RuleHead → Option String
  | .simple _ => none
  | .template _ param => some param

def isTemplate : RuleHead → Bool
  | .simple _ => false
  | .template _ _ => true

/-- The head as it is written; traces and diagnostics show rules this way. -/
def display : RuleHead → String
  | .simple name => name
  | .template name param => name.getD "" ++ "`" ++ param ++ "`"

end RuleHead

/-- A rule. -/
structure Rule where
  head : RuleHead
  /-- The declared type of the result, as host code. -/
  type : Option String
  alternatives : List Alternative
  span : Span

/-- Host code that is passed through. -/
structure Pasta where
  code : String
  span : Span

/-- A grammar. -/
structure Grammar where
  pastas : List Pasta := []
  rules : List Rule := []

/-- The names of the functions every grammar has; no rule may be called like them. -/
def builtinFunctions : List String :=
  ["not", "look", "try", "backtrack"]

end Peg
