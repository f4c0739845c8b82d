/-
Peg/Grammar/Tree.lean

Grammars from syntax trees.

The grammar of grammars gives trees of nodes whose kinds are those of the
parts of a grammar.  `Grammar.ofTree` reads such a tree.  Trees may also come
from elsewhere, so every node is checked for its kind, and every child for
being there and for its type; the error tells what was expected.
-/
import Peg.Grammar.Basic
import Peg.Grammar.Token
import Peg.CompileError

namespace Peg

namespace Tree

/-- The error for a tree that is not one of a grammar. -/
def malformed {α : Type} (expected : String) : Except CompileError α :=
  .error ⟨{}, .malformedTree expected, none⟩

/-- The children and the span of a node of a kind. -/
def node (kind : String) : Value → Except CompileError (List Value × Span)
  | .node kind' span children => if kind' = kind then .ok (children, span) else malformed kind
  | _ => malformed kind

/-- A child of a node. -/
def child (children : List Value) (index : Nat) (expected : String) : Except CompileError Value :=
  match children[index]? with
  | some value => .ok value
  | none => malformed expected

/-- The items of a list. -/
def list (expected : String) : Value → Except CompileError (List Value)
  | .list items => .ok items
  | _ => malformed expected

/-- A text. -/
def string (expected : String) (value : Value) : Except CompileError String :=
  match value.asString? with
  | some text => .ok text
  | none => malformed expected

/-- A text that may be absent. -/
def optionalString (expected : String) : Value → Except CompileError (Option String)
  | .absent => .ok none
  | value => (string expected value).map some

/-- The repetition that a modifier stands for. -/
def repetition : Option String → Except CompileError (Option Repetition)
  | none => .ok none
  | some symbol =>
    match symbol.toList.head?.bind Repetition.ofSymbol? with
    | some repetition => .ok (some repetition)
    | none => malformed "repetition"

/-! ### Patterns -/

mutual

/-- A pattern. -/
def pattern : (tree : Value) → Except CompileError Pattern
  | .node kind span children =>
    let token := do string "pattern token" (← child children 0 "pattern")
    match kind with
    | "literal" => do return .literal (Token.decodeLiteral (← token)) span
    | "regex" => do
      let (source, flags) := Token.decodeRegex (← token)
      return .regex source flags span
    | "any" => .ok (.any span)
    | "variable" => do
      match Token.decodeVariable? (← token) with
      | some index => return .variable index span
      | none => malformed "variable"
    | "id" => do return .name (← token) span
    | "template" => do
      let function ← optionalString "template name" (← child children 0 "template")
      let body ← string "template body" (← child children 1 "template")
      return .template function body span
    | "apply" =>
      match children with
      | [] => malformed "pattern"
      | function :: arguments => do
        let function ← string "pattern token" function
        return .apply function (← argument arguments) span
    | "group" =>
      match children with
      | .list items :: _ => do return .group (← groupItems items) span
      | _ :: _ => malformed "group items"
      | [] => malformed "group"
    | _ => malformed "pattern"
  | _ => malformed "pattern"

/-- The pattern that a function is applied to. -/
def argument : (arguments : List Value) → Except CompileError Pattern
  | [] => malformed "apply"
  | tree :: _ => pattern tree

/-- The members of a group. -/
def groupItems : (trees : List Value) → Except CompileError (List GroupItem)
  | [] => .ok []
  | tree :: trees => do return (← groupItem tree) :: (← groupItems trees)

/-- A member of a group: an optional mark, and a pattern that may be repeated. -/
def groupItem : (tree : Value) → Except CompileError GroupItem
  | .node "groupItem" _ children =>
    match children with
    | [] | [_] => malformed "group item"
    | mark :: tree :: _ => repeatable (!mark.isAbsent) tree
  | _ => malformed "groupItem"

/-- A pattern that may be repeated, marked as important or not. -/
def repeatable (important : Bool) : (tree : Value) → Except CompileError GroupItem
  | .node "rep" span children =>
    match children with
    | [] | [_] => malformed "rep"
    | tree :: modifier :: _ => do
      let repetition ← repetition (← optionalString "repetition" modifier)
      return .mk important (← pattern tree) repetition span
  | _ => malformed "rep"

end

/-! ### Rules -/

/-- An item of an alternative. -/
def item (tree : Value) : Except CompileError Item := do
  return (← repeatable false tree).item

/-- The mapper of an alternative, unless there is none or it is blank. -/
def mapper : (tree : Value) → Except CompileError (Option MapperCode)
  | .absent => .ok none
  | tree => do
    let (children, span) ← node "mapper" tree
    let code := Token.normalizeMapper (← string "mapper code" (← child children 0 "mapper"))
    return if code.isEmpty then none else some ⟨code, span⟩

/-- An alternative. -/
def alternative (tree : Value) : Except CompileError Alternative := do
  let (children, span) ← node "alternative" tree
  let trees ← list "alternative items" (← child children 0 "alternative")
  let items ← trees.mapM item
  return ⟨items, ← mapper (← child children 1 "alternative"), span⟩

/-- A declared type, unless it is blank. -/
def declaredType (tree : Value) : Except CompileError (Option String) := do
  match ← optionalString "rule type" tree with
  | none => return none
  | some text =>
    let type := Text.trim text.toList
    return if type.isEmpty then none else some (String.ofList type)

/-- A rule from its head, its type and its alternatives. -/
def ruleOf (head : RuleHead) (type alternatives : Value) (span : Span) :
    Except CompileError Rule := do
  let type ← declaredType type
  let trees ← list "alternatives" alternatives
  return ⟨head, type, ← trees.mapM alternative, span⟩

/-- A simple rule. -/
def simpleRule (tree : Value) : Except CompileError Rule := do
  let (children, span) ← node "rule" tree
  let name ← string "rule name" (← child children 0 "rule")
  let type ← child children 1 "rule"
  let alternatives ← child children 2 "rule"
  ruleOf (.simple name) type alternatives span

/-- A template. -/
def templateRule (tree : Value) : Except CompileError Rule := do
  let (children, span) ← node "templateRule" tree
  let name ← optionalString "template name" (← child children 0 "template rule")
  let param ← string "template parameter" (← child children 1 "template rule")
  let type ← child children 2 "template rule"
  let alternatives ← child children 3 "template rule"
  ruleOf (.template name param) type alternatives span

/-- A pasta block. -/
def pasta (tree : Value) : Except CompileError Pasta := do
  let (children, span) ← node "pasta" tree
  return ⟨← string "pasta code" (← child children 0 "pasta"), span⟩

/-- Add the pasta block or the rule of a tree to a grammar. -/
def addTo (grammar : Grammar) (tree : Value) : Except CompileError Grammar := do
  match tree.kind? with
  | some "pasta" => return { grammar with pastas := grammar.pastas ++ [← pasta tree] }
  | some "rule" => return { grammar with rules := grammar.rules ++ [← simpleRule tree] }
  | some "templateRule" => return { grammar with rules := grammar.rules ++ [← templateRule tree] }
  | _ => malformed "grammar item"

end Tree

/-- The grammar that a syntax tree stands for. -/
def Grammar.ofTree (tree : Value) : Except CompileError Grammar := do
  let (children, _) ← Tree.node "grammar" tree
  let trees ← Tree.list "grammar items" (← Tree.child children 0 "grammar")
  trees.foldlM Tree.addTo {}

end Peg
