/-
Peg/Grammar/Format.lean

The written form of a grammar, which reads back as the same grammar up to
spans.

Every alternative but the first has a line of its own.  A mapper reaches to
the end of its line and over the indented lines after it, so the semicolon
that ends a rule moves to a line of its own after a mapper.
-/
import Peg.Grammar.Basic
import Peg.Grammar.Token

namespace Peg

mutual

/-- A pattern as it is written. -/
def Pattern.format : Pattern → String
  | .literal string _ => Token.encodeLiteral string
  | .regex source flags _ => Token.encodeRegex source flags
  | .any _ => "."
  | .name name _ => name
  | .variable index _ => Token.encodeVariable index
  | .template function body _ => function.getD "" ++ "`" ++ body ++ "`"
  | .apply function pattern _ => function ++ "(" ++ pattern.format ++ ")"
  | .group items _ => "(" ++ " ".intercalate (formatGroupItems items) ++ ")"

/-- A member of a group as it is written. -/
def GroupItem.format : GroupItem → String
  | .mk important pattern repetition _ =>
    (if important then "!" else "") ++ pattern.format
      ++ (repetition.map fun repetition => repetition.symbol.toString).getD ""

/-- The members of a group as they are written. -/
def formatGroupItems : List GroupItem → List String
  | [] => []
  | item :: items => item.format :: formatGroupItems items

end

/-- A member of a sequence as it is written. -/
def Item.format (item : Item) : String :=
  (GroupItem.ofItem false item).format

/-- An alternative as it is written. -/
def Alternative.format (alternative : Alternative) : String :=
  let items := " ".intercalate (alternative.items.map Item.format)
  match alternative.mapper with
  | some mapper => items ++ " %% " ++ Token.indentMapper mapper.code
  | none => items

/-- A rule as it is written. -/
def Rule.format (rule : Rule) : String :=
  let head := match rule.type with
    | some type => rule.head.display ++ ": " ++ type
    | none => rule.head.display
  let ending :=
    if (rule.alternatives.getLast?.bind (·.mapper)).isSome then "\n    ;" else " ;"
  head ++ " = " ++ "\n    | ".intercalate (rule.alternatives.map Alternative.format) ++ ending

/-- A pasta block as it is written. -/
def Pasta.format (pasta : Pasta) : String :=
  "%\x7b" ++ pasta.code ++ "\x7d%"

/-- A grammar as it is written: the pasta blocks, an empty line, the rules. -/
def Grammar.format (grammar : Grammar) : String :=
  let separator := if grammar.pastas.isEmpty || grammar.rules.isEmpty then "" else "\n"
  String.join (grammar.pastas.map fun pasta => pasta.format ++ "\n") ++ separator
    ++ String.join (grammar.rules.map fun rule => rule.format ++ "\n")

end Peg
