/-
Peg/Program/Nullable.lean

Which rules may succeed without reading anything.

What a template does depends on its literal, so every rule has two entries:
one for a literal that is not empty, which is also that of a simple rule, and
one for the empty literal.  The tables are found by starting from none and
adding rules as long as that changes something: a rule is added as soon as all
items of one of its alternatives are nullable.
-/
import Peg.Program.Basic

namespace Peg

/-- The rules that may succeed without reading anything. -/
structure Nullable where
  /-- By rule, when the parameter is a literal that is not empty. -/
  rules : List Bool
  /-- By rule, when the parameter is the empty literal. -/
  emptyParam : List Bool
  deriving DecidableEq, Repr

namespace Nullable

/-- The entry of a rule for one kind of parameter. -/
def rule (nullable : Nullable) (id : Nat) (emptyParam : Bool) : Bool :=
  (if emptyParam then nullable.emptyParam else nullable.rules).getD id false

/-- The tables with a rule added to one of them. -/
def mark (nullable : Nullable) (id : Nat) (emptyParam : Bool) : Nullable :=
  if emptyParam then { nullable with emptyParam := nullable.emptyParam.set id true }
  else { nullable with rules := nullable.rules.set id true }

/-- The tables without any rule in them. -/
def none (count : Nat) : Nullable :=
  ⟨List.replicate count false, List.replicate count false⟩

end Nullable

mutual

/-- Whether a matcher may succeed without reading anything.  `emptyParam` says which kind of
literal the enclosing template was given. -/
def Matcher.isNullable (nullable : Nullable) (emptyParam : Bool) : Matcher → Bool
  | .literal string => string.isEmpty
  | .regex expression _ => expression.matchesEmpty
  | .param => emptyParam
  | .any | .negative _ | .external _ _ _ => false
  | .rule id => nullable.rule id false
  | .template id argument => nullable.rule id argument.isEmpty
  | .variable _ | .look _ | .backtrack _ => true
  | .attempt inner => inner.isNullable nullable emptyParam
  | .group items _ => allNullable nullable emptyParam items
  | .repeated _ .optional | .repeated _ .any => true
  | .repeated inner .oneOrMore => inner.isNullable nullable emptyParam

/-- Whether all the matchers of a sequence may succeed without reading anything. -/
def allNullable (nullable : Nullable) (emptyParam : Bool) : List Matcher → Bool
  | [] => true
  | matcher :: matchers =>
    matcher.isNullable nullable emptyParam && allNullable nullable emptyParam matchers

end

/-- Whether one of the alternatives of a rule is nullable. -/
def CompiledRule.isNullable (rule : CompiledRule) (nullable : Nullable) (emptyParam : Bool) :
    Bool :=
  rule.alternatives.any fun alternative => allNullable nullable emptyParam alternative.items

namespace Nullable

/-- The tables after one rule has been looked at for one kind of parameter. -/
def visit (program : Program) (nullable : Nullable) (id : Nat) (emptyParam : Bool) : Nullable :=
  match program.rules[id]? with
  | some rule =>
    if rule.isNullable nullable emptyParam then nullable.mark id emptyParam else nullable
  | .none => nullable

/-- The tables after every rule has been looked at for both kinds of parameters. -/
def pass (program : Program) (nullable : Nullable) : Nullable :=
  (List.range program.rules.length).foldl
    (fun nullable id => visit program (visit program nullable id false) id true) nullable

/-- Passes until one of them changes nothing. -/
def saturate (program : Program) : (fuel : Nat) → Nullable → Nullable
  | 0, nullable => nullable
  | fuel + 1, nullable =>
    let next := pass program nullable
    if next = nullable then nullable else saturate program fuel next

end Nullable

/-- The rules of a program that may succeed without reading anything.  Each pass that changes
something adds an entry, which bounds their number. -/
def Program.nullable (program : Program) : Nullable :=
  Nullable.saturate program (2 * program.rules.length + 1) (.none program.rules.length)

/-! ### Warnings -/

/-- Whether a matcher is a repetition whose body may succeed without reading anything. -/
def Matcher.isNullableRepetition (nullable : Nullable) : Matcher → Bool
  | .repeated inner .any | .repeated inner .oneOrMore => inner.isNullable nullable false
  | _ => false

/-- The names of the rules with such repetitions, once for each. -/
def Program.nullableRepetitions (program : Program) (nullable : Nullable) : List String :=
  program.rules.flatMap fun rule =>
    (rule.parts.filter (Matcher.isNullableRepetition nullable)).map fun _ => rule.name

end Peg
