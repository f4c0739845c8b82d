/-
Peg/Program/Compile.lean

From grammars to programs.

First the declarations are checked, then every rule is resolved in order, and
the first error found is the one reported.  The resolved rules then have to be
free of left recursion, unless that is allowed.

A variable refers to an earlier item of its own sequence.  It may not also
refer to an earlier item of a sequence around it, since it would be unclear
which one is meant; `bound` holds, innermost first, how many items come before
the current one in each of these sequences.

What happens on the way is logged: every rule that has been resolved, every
repetition that may match nothing, and the end of a successful compilation.
-/
import Peg.Program.LeftRecursion
import Peg.Regex.Parser

namespace Peg

/-! ### Options and log -/

/-- Options of the compilation. -/
structure CompileOptions where
  /-- Whether templates skip the blanks after a match. -/
  templateWhitespace : Bool := true
  /-- Whether left recursion is refused. -/
  rejectLeftRecursion : Bool := true
  /-- Whether mappers are read as expressions; if not, alternatives give tuples. -/
  interpretMappers : Bool := true
  /-- Whether functions without a registered transformer are left to generated parsers. -/
  hostTransformers : Bool := false
  /-- The transformers by name. -/
  transformers : List (String × Transformer) := []
  /-- The engine that reads regular expressions. -/
  dialect : Regex.Dialect := {}

/-- The options for generating a parser: mappers and functions are the host's. -/
def CompileOptions.forCodegen : CompileOptions :=
  { interpretMappers := false, hostTransformers := true }

/-- What is logged about a compilation. -/
inductive LogEntry where
  | compiledRule (rule : String) (alternatives : Nat)
  | nullableRepetition (rule : String)
  | compiledGrammar (rules pastas : Nat)
  deriving DecidableEq, Repr

/-! ### Declarations -/

/-- Check the name of a rule against those declared before it. -/
def Rule.checkName (rule : Rule) (earlier : List Rule) : Except CompileError Unit :=
  match rule.head.name? with
  | none =>
    if earlier.any fun other => other.head.name?.isNone then
      .error ⟨rule.span, .duplicateDefaultTemplate, some "give a name to one of the template rules"⟩
    else .ok ()
  | some name =>
    if builtinFunctions.contains name then .error ⟨rule.span, .reservedName name, none⟩
    else if earlier.any fun other => other.head.name? == some name then
      .error ⟨rule.span, .duplicateRule name,
        some "simple and template rules share the same names"⟩
    else .ok ()

/-- Check the names of rules in order. -/
def checkNames (earlier : List Rule) : List Rule → Except CompileError Unit
  | [] => .ok ()
  | rule :: rules => do
    rule.checkName earlier
    checkNames (rule :: earlier) rules

/-! ### Names -/

namespace Grammar

/-- The number of the simple rule with a name. -/
def simpleRule? (grammar : Grammar) (name : String) : Option Nat :=
  grammar.rules.findIdx? fun rule => rule.head.simpleName? == some name

/-- The number of the template with a name, or of the one without. -/
def template? (grammar : Grammar) (name : Option String) : Option Nat :=
  grammar.rules.findIdx? fun rule => rule.head.isTemplate && rule.head.name? == name

end Grammar

/-- What resolving a pattern depends on. -/
structure Resolver where
  grammar : Grammar
  options : CompileOptions

namespace Resolver

/-- The matcher for a name, which is a parameter before it is a rule. -/
def resolveName (resolver : Resolver) (param : Option String) (name : String) (span : Span) :
    Except CompileError Matcher :=
  if param = some name then .ok .param
  else
    match resolver.grammar.simpleRule? name with
    | some id => .ok (.rule id)
    | none =>
      if (resolver.grammar.template? (some name)).isSome then
        .error ⟨span, .templateWithoutArgument name,
          some "instantiate it with a literal, like name`literal`"⟩
      else .error ⟨span, .unknownRule name, none⟩

/-- The number of the template that is instantiated. -/
def resolveTemplate (resolver : Resolver) (function : Option String) (span : Span) :
    Except CompileError Nat :=
  match resolver.grammar.template? function with
  | some id => .ok id
  | none =>
    match function with
    | none =>
      .error ⟨span, .missingDefaultTemplate,
        some "declare a template rule without a name, like `param` = param ;"⟩
    | some name =>
      if (resolver.grammar.simpleRule? name).isSome then .error ⟨span, .notATemplate name, none⟩
      else .error ⟨span, .unknownTemplate name, none⟩

/-- The matcher for a variable among the items bound so far, innermost sequence first. -/
def resolveVariable (bound : List Nat) (index : Nat) (span : Span) : Except CompileError Matcher :=
  if bound.headD 0 ≤ index then .error ⟨span, .unboundVariable index, none⟩
  else if bound.tail.any (index < ·) then .error ⟨span, .variableCollision index, none⟩
  else .ok (.variable index)

/-- The transformer with a name, or none if it is left to generated parsers. -/
def resolveTransformer (resolver : Resolver) (name : String) (span : Span) :
    Except CompileError (Option Transformer) :=
  match resolver.options.transformers.lookup name with
  | some transformer => .ok (some transformer)
  | none =>
    if resolver.options.hostTransformers then .ok none
    else
      .error ⟨span, .unknownTransformer name,
        some "transformers must be registered in the compilation options"⟩

/-- The function of every grammar with a name. -/
def builtin? : String → Option (Matcher → Matcher)
  | "not" => some .negative
  | "look" => some .look
  | "try" => some .attempt
  | "backtrack" => some .backtrack
  | _ => none

/-- The matcher with its repetition. -/
def repeatMatcher (repetition : Option Repetition) (matcher : Matcher) : Matcher :=
  match repetition with
  | some repetition => .repeated matcher repetition
  | none => matcher

/-- The positions of the important members of a group. -/
def importantIndexes (items : List GroupItem) : List Nat :=
  (items.zipIdx.filter (·.1.important)).map (·.2)

/-! ### Patterns -/

mutual

/-- The matcher for a pattern. -/
def resolvePattern (resolver : Resolver) (param : Option String) (bound : List Nat) :
    Pattern → Except CompileError Matcher
  | .literal string _ => .ok (.literal string)
  | .regex source flags span =>
    match Regex.pattern? source flags resolver.options.dialect with
    | some expression => .ok (.regex expression (Regex.describe source flags))
    | none => .error ⟨span, .invalidRegex (Regex.describe source flags), none⟩
  | .any _ => .ok .any
  | .name name span => resolver.resolveName param name span
  | .variable index span => resolveVariable bound index span
  | .template function body span => do
    return .template (← resolver.resolveTemplate function span) body
  | .apply function inner span =>
    match builtin? function with
    | some make => do
      return make (← resolver.resolvePattern param bound inner)
    | none =>
      match resolver.grammar.template? (some function) with
      | some id =>
        match inner with
        | .literal argument _ => .ok (.template id argument)
        | _ => .error ⟨span, .templateWithoutArgument function, none⟩
      | none =>
        if (resolver.grammar.simpleRule? function).isSome then
          .error ⟨span, .notATransformer function,
            some ("only the built-in functions (not, look, try, backtrack) and host transformers "
              ++ "can be applied to a pattern")⟩
        else do
          let transformer ← resolver.resolveTransformer function span
          return .external function transformer (← resolver.resolvePattern param bound inner)
  | .group items _ => do
    return .group (← resolver.resolveGroupItems param bound 0 items) (importantIndexes items)

/-- The matcher for a member of a group. -/
def resolveGroupItem (resolver : Resolver) (param : Option String) (bound : List Nat) :
    GroupItem → Except CompileError Matcher
  | .mk _ pattern repetition _ => do
    return repeatMatcher repetition (← resolver.resolvePattern param bound pattern)

/-- The matchers for the members of a group, `index` of which came before.  `outer` tells how many
items are bound in the sequences around the group. -/
def resolveGroupItems (resolver : Resolver) (param : Option String) (outer : List Nat)
    (index : Nat) : List GroupItem → Except CompileError (List Matcher)
  | [] => .ok []
  | item :: items => do
    let matcher ← resolver.resolveGroupItem param (index :: outer) item
    return matcher :: (← resolver.resolveGroupItems param outer (index + 1) items)

end

/-! ### Rules -/

/-- The matchers for the items of an alternative. -/
def resolveItems (resolver : Resolver) (param : Option String) (items : List Item) :
    Except CompileError (List Matcher) :=
  resolver.resolveGroupItems param [] 0 (items.map (GroupItem.ofItem false))

/-- The expression of a mapper for an alternative with a number of items. -/
def resolveMapper (items : Nat) (mapper : MapperCode) : Except CompileError MapperExpr :=
  match MapperExpr.parse mapper.code with
  | .error error =>
    .error ⟨mapper.span, .invalidMapper error,
      some ("interpreted mappers are made of $N, text(), start, end, strings, [lists], calls and "
        ++ "'+'")⟩
  | .ok expr =>
    match expr.maxCapture? with
    | some index =>
      if items ≤ index then .error ⟨mapper.span, .unboundVariable index, none⟩ else .ok expr
    | none => .ok expr

/-- The alternative of a program for one of a grammar. -/
def resolveAlternative (resolver : Resolver) (param : Option String) (alternative : Alternative) :
    Except CompileError CompiledAlternative := do
  let items ← resolver.resolveItems param alternative.items
  match alternative.mapper with
  | some mapper =>
    if resolver.options.interpretMappers then
      return ⟨items, some (← resolveMapper items.length mapper)⟩
    else return ⟨items, none⟩
  | none => return ⟨items, none⟩

/-- The rule of a program for one of a grammar. -/
def resolveRule (resolver : Resolver) (rule : Rule) : Except CompileError CompiledRule := do
  let alternatives ← rule.alternatives.mapM (resolver.resolveAlternative rule.head.param?)
  return {
    head := rule.head
    skipsBlank := rule.head.isTemplate && resolver.options.templateWhitespace
    alternatives
    span := rule.span }

/-- Resolve rules in order, up to the first error, and log those that are resolved. -/
def resolveRules (resolver : Resolver) :
    List Rule → List LogEntry × Except CompileError (List CompiledRule)
  | [] => ([], .ok [])
  | rule :: rules =>
    match resolver.resolveRule rule with
    | .error error => ([], .error error)
    | .ok compiled =>
      let (log, rest) := resolver.resolveRules rules
      (.compiledRule compiled.name compiled.alternatives.length :: log,
        rest.map (compiled :: ·))

end Resolver

/-! ### Compilation -/

namespace Grammar

/-- Check that a program is free of left recursion where that is asked for. -/
def finishCompilation (grammar : Grammar) (options : CompileOptions) (program : Program) :
    List LogEntry × Except CompileError Program :=
  let nullable := program.nullable
  let warnings := (program.nullableRepetitions nullable).map LogEntry.nullableRepetition
  let checked :=
    if options.rejectLeftRecursion then program.checkLeftRecursion nullable else .ok ()
  match checked with
  | .error error => (warnings, .error error)
  | .ok () =>
    (warnings ++ [.compiledGrammar program.rules.length grammar.pastas.length], .ok program)

/-- Compile a grammar, and log what happens. -/
def compileWithLog (grammar : Grammar) (options : CompileOptions) :
    List LogEntry × Except CompileError Program :=
  match checkNames [] grammar.rules with
  | .error error => ([], .error error)
  | .ok () =>
    match Resolver.resolveRules ⟨grammar, options⟩ grammar.rules with
    | (log, .error error) => (log, .error error)
    | (log, .ok rules) =>
      let (later, result) := grammar.finishCompilation options ⟨rules⟩
      (log ++ later, result)

/-- Compile a grammar. -/
def compile (grammar : Grammar) (options : CompileOptions) : Except CompileError Program :=
  (grammar.compileWithLog options).2

end Grammar

end Peg
