/-
Peg/CompileError.lean

What is wrong with a grammar, and where.

The cause of an error is a constructor; its wording is in `message`, and a tip
goes with the errors that have an obvious remedy.
-/
import Peg.Outcome
import Peg.Mapper.Parser

namespace Peg

/-- Causes of errors in grammars. -/
inductive CompileError.Cause where
  | expected (failure : Failure)
  | leftover
  | malformedTree (part : String)
  | duplicateRule (name : String)
  | reservedName (name : String)
  | duplicateDefaultTemplate
  | unknownRule (name : String)
  | unknownTemplate (name : String)
  | missingDefaultTemplate
  | templateWithoutArgument (name : String)
  | notATemplate (name : String)
  | notATransformer (name : String)
  | unknownTransformer (name : String)
  | unboundVariable (index : Nat)
  | variableCollision (index : Nat)
  | invalidRegex (description : String)
  | invalidMapper (error : MapperExpr.ParseError)
  | leftRecursion (cycle : List String)
  | invalidHostCode (code : String)
  /-- The fuel for reading the grammar was used up. -/
  | unfinished
  deriving DecidableEq, Repr

/-- An error in a grammar. -/
structure CompileError where
  span : Span
  cause : CompileError.Cause
  tip : Option String
  deriving DecidableEq, Repr

namespace CompileError

/-- The cause as a sentence. -/
def Cause.message : Cause → String
  | .expected failure => "Expected " ++ failure.expected
  | .leftover => "Expected rule or pasta block"
  | .malformedTree part => "Malformed syntax tree: expected " ++ part
  | .duplicateRule name => "Another rule was already declared with name '" ++ name ++ "'"
  | .reservedName name =>
    "'" ++ name ++ "' is a built-in function and cannot be used as a rule name"
  | .duplicateDefaultTemplate => "A default template rule was already declared"
  | .unknownRule name => "Unknown rule '" ++ name ++ "'"
  | .unknownTemplate name => "Unknown template rule '" ++ name ++ "'"
  | .missingDefaultTemplate => "No default template rule was declared"
  | .templateWithoutArgument name =>
    "Template rule '" ++ name ++ "' must be instantiated with a literal"
  | .notATemplate name => "'" ++ name ++ "' is not a template rule"
  | .notATransformer name => "Rule '" ++ name ++ "' cannot be used as a transformer"
  | .unknownTransformer name => "Unknown transformer '" ++ name ++ "'"
  | .unboundVariable index =>
    "$" ++ toString index ++ " does not refer to a previous capture of this sequence"
  | .variableCollision index =>
    "$" ++ toString index ++ " is ambiguous as it is also bound in an enclosing sequence"
  | .invalidRegex description => "Invalid regular expression: " ++ description
  | .invalidMapper error => "Invalid mapper: " ++ error.message
  | .leftRecursion cycle => "Left recursion detected: " ++ " -> ".intercalate cycle
  | .invalidHostCode code => "Invalid host code: " ++ code
  | .unfinished => "The grammar was not read to its end"

/-- The error as a sentence. -/
def message (error : CompileError) : String :=
  error.cause.message

/-- The error shown in the source of the grammar, with its tip on a line of its own. -/
def report (error : CompileError) (source : List Char) (name : Option String) : String :=
  let located := locatedMessage source error.span.start error.message name
  match error.tip with
  | some tip => located ++ "\nTip: " ++ tip
  | none => located

end CompileError

end Peg
