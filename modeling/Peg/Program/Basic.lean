/-
Peg/Program/Basic.lean

Programs: grammars with every name resolved.

Rules are numbered in the order of their declarations and refer to each other
by number.  A matcher is a pattern in which names have become rules, templates
or the parameter, and functions have become lookahead, commitment, backward
matching or transformers.

A transformer is a function of the host: it is given a matching and decides
what to match with it, where and how often.  A matcher may carry the name of
a transformer without the function, which only generated parsers have.
-/
import Peg.Outcome
import Peg.Regex.Basic
import Peg.Grammar.Basic
import Peg.Mapper.Basic

namespace Peg

/-- A host function applied to a pattern. -/
abbrev Transformer := Matching Value → Matching Value

/-- Patterns with their names resolved. -/
inductive Matcher where
  | literal (string : String)
  | regex (expression : Regex) (description : String)
  | any
  | rule (id : Nat)
  /-- The literal that the enclosing template is instantiated with. -/
  | param
  /-- The text of an earlier item of the enclosing sequence. -/
  | variable (index : Nat)
  | template (rule : Nat) (argument : String)
  | negative (inner : Matcher)
  | look (inner : Matcher)
  | attempt (inner : Matcher)
  | backtrack (inner : Matcher)
  | external (name : String) (transformer : Option Transformer) (inner : Matcher)
  | group (items : List Matcher) (important : List Nat)
  | repeated (inner : Matcher) (repetition : Repetition)

/-- An alternative of a program. -/
structure CompiledAlternative where
  items : List Matcher
  mapper : Option MapperExpr

/-- A rule of a program. -/
structure CompiledRule where
  head : RuleHead
  /-- Whether blanks are skipped after a match. -/
  skipsBlank : Bool
  alternatives : List CompiledAlternative
  span : Span

/-- The name that traces and diagnostics show. -/
def CompiledRule.name (rule : CompiledRule) : String :=
  rule.head.display

/-- A grammar that is ready to run. -/
structure Program where
  rules : List CompiledRule

namespace Program

/-- The number of the simple rule with a name. -/
def ruleId? (program : Program) (name : String) : Option Nat :=
  program.rules.findIdx? fun rule => rule.head.simpleName? == some name

/-- The rule that matching starts with unless another is named: the first simple one. -/
def entry? (program : Program) : Option Nat :=
  program.rules.findIdx? fun rule => !rule.head.isTemplate

end Program

/-! ### Traversal -/

mutual

/-- A matcher and all those inside it, the outer ones first. -/
def Matcher.parts : Matcher → List Matcher
  | .literal string => [.literal string]
  | .regex expression description => [.regex expression description]
  | .any => [.any]
  | .rule id => [.rule id]
  | .param => [.param]
  | .variable index => [.variable index]
  | .template rule argument => [.template rule argument]
  | .negative inner => .negative inner :: inner.parts
  | .look inner => .look inner :: inner.parts
  | .attempt inner => .attempt inner :: inner.parts
  | .backtrack inner => .backtrack inner :: inner.parts
  | .external name transformer inner => .external name transformer inner :: inner.parts
  | .group items important => .group items important :: partsOfAll items
  | .repeated inner repetition => .repeated inner repetition :: inner.parts

/-- Several matchers and all those inside them. -/
def partsOfAll : List Matcher → List Matcher
  | [] => []
  | matcher :: matchers => matcher.parts ++ partsOfAll matchers

end

/-- All the matchers of a rule, alternative by alternative. -/
def CompiledRule.parts (rule : CompiledRule) : List Matcher :=
  rule.alternatives.flatMap fun alternative => partsOfAll alternative.items

/-- The number of matchers in a program. -/
def Program.size (program : Program) : Nat :=
  (program.rules.flatMap CompiledRule.parts).length

end Peg
