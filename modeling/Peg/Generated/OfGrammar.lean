/-
Peg/Generated/OfGrammar.lean

The generated parser for a grammar.

The grammar has to compile, its pasta blocks have to be modules, the declared
types types, and the mappers, once the variables are put into them,
expressions of the host language; these are checked in this order.

Regular expressions are numbered from left to right: the code of a pattern is
made knowing how many come before it, and so do the ones after it.
-/
import Peg.Generated.Basic
import Peg.Host.Code
import Peg.Host.Substitution
import Peg.Program.Compile

namespace Peg.Generated

open Host

/-! ### Regular expressions -/

mutual

/-- The regular expressions of a pattern from left to right. -/
def regexesOf : Pattern → List RegexCode
  | .regex source flags _ => [⟨source, flags⟩]
  | .apply _ inner _ => regexesOf inner
  | .group items _ => regexesOfMembers items
  | _ => []

/-- The regular expressions of the members of a group. -/
def regexesOfMembers : List GroupItem → List RegexCode
  | [] => []
  | .mk _ pattern _ _ :: items => regexesOf pattern ++ regexesOfMembers items

end

/-- The regular expressions of a sequence. -/
def regexesOfItems (items : List Item) : List RegexCode :=
  items.flatMap fun item => regexesOf item.pattern

/-- The regular expressions of an alternative. -/
def regexesOfAlternative (alternative : Alternative) : List RegexCode :=
  regexesOfItems alternative.items

/-- The regular expressions of a rule. -/
def regexesOfRule (rule : Rule) : List RegexCode :=
  rule.alternatives.flatMap regexesOfAlternative

/-! ### Functions -/

/-- The name of the function for a template without a name. -/
def defaultTemplate : Identifier :=
  ⟨"default_template", false⟩

/-- The function for a rule. -/
def functionOf (head : RuleHead) : Identifier :=
  (head.name?.map Identifier.ofName).getD defaultTemplate

/-- The function for a template, given its name. -/
def templateFunction (grammar : Grammar) (name : Option String) : Identifier :=
  match (grammar.template? name).bind fun id => grammar.rules[id]? with
  | some rule => functionOf rule.head
  | none => defaultTemplate

/-! ### Matchers -/

/-- What the code of a pattern depends on besides its place. -/
structure Context where
  grammar : Grammar
  /-- The parameter of the enclosing template. -/
  param : Option String

namespace Context

/-- The code for a function applied to a pattern. -/
def applied (context : Context) (function : String) (pattern : Pattern) (inner : MatcherCode) :
    MatcherCode :=
  match function with
  | "not" => .negative inner
  | "look" => .look inner
  | "try" => .attempt inner
  | "backtrack" => .backtrack inner
  | function =>
    match pattern, context.grammar.template? (some function) with
    | .literal argument _, some _ =>
      .template (templateFunction context.grammar (some function)) argument
    | _, _ => .external (Identifier.ofName function) inner

/-- The code for a pattern that may be repeated. -/
def repeated (repetition : Option Repetition) (code : MatcherCode) : MatcherCode :=
  match repetition with
  | some mode => .repeated mode code
  | none => code

/-- The indexes of the members of a group whose values are kept. -/
def keptMembers (items : List GroupItem) : List Nat :=
  project (List.range items.length) (Resolver.importantIndexes items)

mutual

/-- The code for a pattern, given how deep in groups it is and how many regular expressions come
before it. -/
def pattern (context : Context) (depth first : Nat) : Pattern → MatcherCode
  | .literal string _ => .literal string
  | .regex source flags _ => .regex first (RegexCode.mk source flags).description
  | .any _ => .any
  | .name name _ =>
    if context.param = some name then .param else .rule (Identifier.ofName name)
  | .variable index _ => .variable ⟨depth, index⟩
  | .template function body _ => .template (templateFunction context.grammar function) body
  | .apply function inner _ =>
    context.applied function inner (context.pattern depth first inner)
  | .group items _ =>
    .group (depth + 1) (context.members (depth + 1) first items) (keptMembers items)

/-- The code for the members of a group. -/
def members (context : Context) (depth first : Nat) : List GroupItem → List MatcherCode
  | [] => []
  | .mk _ pattern repetition _ :: items =>
    repeated repetition (context.pattern depth first pattern)
      :: context.members depth (first + (regexesOf pattern).length) items

end

/-- The code for the items of an alternative. -/
def items (context : Context) (first : Nat) : List Item → List MatcherCode
  | [] => []
  | item :: items =>
    repeated item.repetition (context.pattern 0 first item.pattern)
      :: context.items (first + (regexesOf item.pattern).length) items

end Context

/-! ### Rules -/

/-- The error for code that the host language does not have. -/
def hostCodeError (span : Span) (code : String) : CompileError :=
  ⟨span, .invalidHostCode code,
    some "mappers, rule types and pasta blocks must be valid Rust code"⟩

/-- The expression for the result of an alternative with a mapper. -/
def mapperCode (mapper : MapperCode) : Except CompileError Tokens :=
  let code := substituteMapper mapper.code
  match expression? code.toList with
  | some tokens => .ok tokens
  | none => .error (hostCodeError mapper.span code)

/-- The functions for the alternatives of a rule, given the number of the first one. -/
def alternativesCode (context : Context) (function : Identifier) :
    (number first : Nat) → List Alternative → Except CompileError (List AlternativeCode)
  | _, _, [] => .ok []
  | number, first, alternative :: alternatives => do
    let result ← alternative.mapper.mapM mapperCode
    let others ← alternativesCode context function (number + 1)
      (first + (regexesOfAlternative alternative).length) alternatives
    return {
      function := function.alternative number
      items := context.items first alternative.items
      result } :: others

/-- The type of the results of a rule. -/
def typeCode (rule : Rule) : Except CompileError Tokens :=
  match rule.type with
  | none => .ok (.word "rt" :: operator "::".toList ++ [.word "Value"])
  | some code =>
    match type? code.toList with
    | some tokens => .ok tokens
    | none => .error (hostCodeError rule.span code)

/-- The type of the results of a function; of several rules with one function the last one
counts. -/
def typeOf (types : List (Identifier × Tokens)) (function : Identifier) : Tokens :=
  ((types.reverse.find? fun entry => entry.1 == function).map (·.2)).getD []

/-- The functions for rules. -/
def rulesCode (grammar : Grammar) (types : List (Identifier × Tokens)) :
    (first : Nat) → List Rule → Except CompileError (List RuleCode)
  | _, [] => .ok []
  | first, rule :: rules => do
    let function := functionOf rule.head
    let alternatives ← alternativesCode ⟨grammar, rule.head.param?⟩ function 0 first
      rule.alternatives
    let others ← rulesCode grammar types (first + (regexesOfRule rule).length) rules
    return {
      function
      isTemplate := rule.head.isTemplate
      type := typeOf types function
      isUntyped := rule.type.isNone
      alternatives } :: others

/-! ### Parsers -/

/-- Check that a pasta block is host code. -/
def checkPasta (pasta : Pasta) : Except CompileError Unit :=
  if isModule pasta.code.toList then .ok () else .error (hostCodeError pasta.span pasta.code)

/-- The options that a grammar has to compile with for a parser to be generated. -/
def codegenOptions (options : CompileOptions) : CompileOptions :=
  { options with interpretMappers := false, hostTransformers := true, transformers := [] }

/-- The generated parser for a grammar. -/
def ParserCode.ofGrammar (grammar : Grammar) (options : CompileOptions) :
    Except CompileError ParserCode := do
  let _ ← grammar.compile (codegenOptions options)
  grammar.pastas.forM checkPasta
  let types ← grammar.rules.mapM fun rule => do
    return (functionOf rule.head, ← typeCode rule)
  let rules ← rulesCode grammar types 0 grammar.rules
  return {
    pastas := grammar.pastas.map (·.code)
    templateWhitespace := options.templateWhitespace
    dialect := options.dialect
    regexes := grammar.rules.flatMap regexesOfRule
    rules }

end Peg.Generated
