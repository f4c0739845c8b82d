/-
Peg/Grammar/Meta.lean

The grammar of grammars.

It is an ordinary grammar, compiled and run like any other.  Its entry rule
gives a tree that `Grammar.ofTree` reads.  Blanks and comments belong to the
token before them, except those at the very beginning.

Where two constructs start alike, the longer one is looked ahead for: a
template begins with an optional name and a backquote, an application with a
name and a parenthesis.
-/
import Peg.Grammar.Basic

namespace Peg

namespace Meta

/-! ### Notation for the parts of the grammar -/

/-- A literal. -/
def lit (string : String) : Pattern :=
  .literal string {}

/-- A regular expression without flags. -/
def rx (source : String) : Pattern :=
  .regex source "" {}

/-- A rule. -/
def ref (name : String) : Pattern :=
  .name name {}

/-- A function applied to a pattern. -/
def app (function : String) (pattern : Pattern) : Pattern :=
  .apply function pattern {}

/-- Exactly one match. -/
def one (pattern : Pattern) : Item :=
  ⟨pattern, none, {}⟩

/-- Zero or one match. -/
def opt (pattern : Pattern) : Item :=
  ⟨pattern, some .optional, {}⟩

/-- Any number of matches. -/
def anyOf (pattern : Pattern) : Item :=
  ⟨pattern, some .any, {}⟩

/-- At least one match. -/
def oneOrMore (pattern : Pattern) : Item :=
  ⟨pattern, some .oneOrMore, {}⟩

/-- An alternative without a mapper. -/
def bare (items : List Item) : Alternative :=
  ⟨items, none, {}⟩

/-- An alternative with a mapper. -/
def mapped (items : List Item) (mapper : String) : Alternative :=
  ⟨items, some ⟨mapper, {}⟩, {}⟩

/-- A simple rule. -/
def rule (name : String) (alternatives : List Alternative) : Rule :=
  ⟨.simple name, none, alternatives, {}⟩

/-! ### Declarations -/

/-- Pasta blocks and rules. -/
def declarations : List Rule := [
  rule "grammar" [mapped [one (ref "ws"), anyOf (ref "item")] "grammar($1)"],
  rule "item" [bare [one (ref "pasta")], bare [one (ref "rule")]],
  rule "pasta" [
    mapped [one (lit "%\x7b"), one (ref "pastaText"), one (lit "\x7d%"), one (ref "ws")]
      "pasta($1)"],
  rule "pastaText" [mapped [anyOf (app "not" (lit "\x7d%"))] "text()"],
  rule "rule" [
    mapped [
        one (app "look" (ref "tplHead")), opt (ref "id"), one (lit "`"), one (ref "id"),
        one (lit "`"), one (ref "ws"), opt (ref "typeAnn"), one (lit "="), one (ref "ws"),
        one (ref "alternatives"), one (lit ";"), one (ref "ws")]
      "templateRule($1, $3, $6, $9)",
    mapped [
        one (ref "id"), one (ref "ws"), opt (ref "typeAnn"), one (lit "="), one (ref "ws"),
        one (ref "alternatives"), one (lit ";"), one (ref "ws")]
      "rule($0, $2, $5)"],
  rule "tplHead" [bare [opt (ref "id"), one (lit "`")]],
  rule "typeAnn" [mapped [one (lit ":"), one (ref "ws"), one (rx "[^=;]+")] "$2"]]

/-! ### Alternatives -/

/-- Alternatives, their mappers and their items.  A mapper goes on over the indented lines after
its own, as long as they do not start with a bar, a semicolon or a dash. -/
def alternativeRules : List Rule := [
  rule "alternatives" [mapped [one (ref "alternative"), anyOf (ref "altTail")] "[$0] + $1"],
  rule "altTail" [mapped [one (lit "|"), one (ref "ws"), one (ref "alternative")] "$2"],
  rule "alternative" [mapped [oneOrMore (ref "rep"), opt (ref "mapper")] "alternative($0, $1)"],
  rule "mapper" [mapped [one (lit "%%"), one (ref "mapperText"), one (ref "ws")] "mapper($1)"],
  rule "mapperText" [bare [one (rx "[^\\n]*(\\n[ \\t]+[^|;\\s-][^\\n]*)*")]],
  rule "rep" [
    mapped [one (ref "simple"), opt (ref "modifier"), one (ref "ws")] "rep($0, $1)"],
  rule "modifier" [bare [one (rx "[?*+]")]]]

/-! ### Patterns -/

/-- Patterns. -/
def patternRules : List Rule := [
  rule "simple" [
    bare [one (ref "literal")], bare [one (ref "regex")], bare [one (ref "any")],
    bare [one (ref "variable")], bare [one (ref "group")],
    mapped [one (app "look" (ref "tplHead")), one (ref "template")] "$1",
    mapped [one (app "look" (ref "applyHead")), one (ref "apply")] "$1",
    mapped [one (ref "id")] "id($0)"],
  rule "applyHead" [bare [one (ref "id"), one (lit "(")]],
  rule "literal" [mapped [one (rx "'(\\\\.|[^'\\\\])*'")] "literal($0)"],
  rule "regex" [mapped [one (rx "/(\\\\.|[^/\\\\\\n])*/[is]*")] "regex($0)"],
  rule "any" [mapped [one (lit ".")] "any()"],
  rule "variable" [mapped [one (rx "\\$[0-9]+")] "variable($0)"],
  rule "group" [
    mapped [one (lit "("), one (ref "ws"), oneOrMore (ref "groupItem"), one (lit ")")]
      "group($2)"],
  rule "groupItem" [
    mapped [opt (lit "!"), one (ref "ws"), one (ref "rep")] "groupItem($0, $2)"],
  rule "template" [
    mapped [opt (ref "id"), one (lit "`"), one (rx "[^`]*"), one (lit "`")] "template($0, $2)"],
  rule "apply" [
    mapped [
        one (ref "id"), one (lit "("), one (ref "ws"), one (ref "simple"), one (ref "ws"),
        one (lit ")")]
      "apply($0, $3)"],
  rule "id" [bare [one (rx "[a-zA-Z_][a-zA-Z0-9_]*")]],
  rule "ws" [bare [one (rx "(\\s|--[^\\n]*)*")]]]

end Meta

/-- The grammar of grammars. -/
def metaGrammar : Grammar :=
  { rules := Meta.declarations ++ Meta.alternativeRules ++ Meta.patternRules }

end Peg
