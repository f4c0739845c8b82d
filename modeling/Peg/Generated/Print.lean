/-
Peg/Generated/Print.lean

How generated parsers are written.

The code is put together from tokens, so that there is one rule for blanks and
host code from the grammar blends in.  `code` gives the tokens of constant
code without brackets, written with a blank between any two of them.
-/
import Peg.Generated.Basic
import Peg.Text.Blank
import Peg.Text.Basic

namespace Peg.Generated

open Host

/-! ### Tokens -/

/-- The tokens for a piece of code between blanks: a word, a literal or an operator. -/
def piece : List Char → List TokenTree
  | [] => []
  | c :: cs =>
    if c.isAlpha || c == '_' then [.word (String.ofList (c :: cs))]
    else if c.isDigit then [.literal (String.ofList (c :: cs))]
    else operator (c :: cs)

/-- The tokens of constant code. -/
def code (text : String) : Tokens :=
  (Text.splitOn ' ' text.toList).flatMap piece

/-- A text as a literal. -/
def text (string : String) : Tokens :=
  [.literal (quote string)]

/-- A name as a token. -/
def name (identifier : Identifier) : Tokens :=
  [.word identifier.print]

/-- Tokens in parentheses. -/
def parentheses (inner : Tokens) : Tokens :=
  [.group .parenthesis inner]

/-- Tokens in brackets. -/
def brackets (inner : Tokens) : Tokens :=
  [.group .bracket inner]

/-- Tokens in braces. -/
def braces (inner : Tokens) : Tokens :=
  [.group .brace inner]

/-- An attribute. -/
def annotation (inner : Tokens) : Tokens :=
  code "#" ++ brackets inner

/-- The attribute that keeps a kind of warning away. -/
def allow (warning : String) : Tokens :=
  annotation (code "allow" ++ parentheses (code warning))

/-- Things with commas between them. -/
def commaSeparated : List Tokens → Tokens
  | [] => []
  | [tokens] => tokens
  | tokens :: others => tokens ++ code "," ++ commaSeparated others

/-! ### Types and parameters -/

/-- The type of the outcome of a match. -/
def outcomeType (type : Tokens) : Tokens :=
  code "rt :: Outcome <" ++ type ++ code ">"

/-- The parameters of functions and closures that match. -/
def matchParameters : Tokens :=
  code "input : & str , start : usize"

/-- The parameter of templates, with the comma after it. -/
def templateParameter (isTemplate : Bool) : Tokens :=
  if isTemplate then code "param : & str ," else []

/-- A closure that matches. -/
def closure (body : Tokens) : Tokens :=
  code "|" ++ matchParameters ++ code "|" ++ body

/-- A call of a function that matches: its own arguments, then the text and the offset. -/
def matchCall (function : Tokens) (arguments : Tokens) : Tokens :=
  function ++ parentheses (arguments ++ code ", input , start")

/-- A call that gives a piece of the input, converted to a text that outlives it. -/
def owned (call : Tokens) : Tokens :=
  call ++ code ". map" ++ parentheses (code "rt :: Success :: into_owned")

/-- A closure that matches, as an operand. -/
def matcher (body : Tokens) : Tokens :=
  parentheses (closure body)

/-! ### Matchers -/

/-- A tuple, unless there is just one value. -/
def tuple : List Tokens → Tokens
  | [value] => value
  | values => parentheses (commaSeparated values)

/-- The statements that match an item and keep what it gave. -/
def itemStatements (place : Place) (item : Tokens) : Tokens :=
  let declaration (name : String) (value : Tokens) : Tokens :=
    code "let" ++ [.word name] ++ code "=" ++ value ++ code ";"
  declaration place.start (code "end")
    ++ code "let rt :: Success"
    ++ braces (code "value :" ++ [.word place.value] ++ code ", end : next")
    ++ code "=" ++ parentheses item ++ parentheses (code "input , end") ++ code "? ;"
    ++ declaration place.stop (code "next")
    ++ declaration "end" (code "next")

/-- The body of a function that matches a sequence. -/
def sequenceBody (statements result : Tokens) : Tokens :=
  let success := code "rt :: Success :: new" ++ parentheses (result ++ code ", end")
  braces (code "let end = start ;" ++ statements ++ code "Ok" ++ parentheses success)

/-- The closure for a repetition. -/
def repetition (mode : Repetition) (body : Tokens) : Tokens :=
  let function := match mode with
    | .optional => "optional"
    | .any => "many"
    | .oneOrMore => "many1"
  closure (matchCall (code "rt ::" ++ code function) body)

mutual

/-- The expression for a matcher. -/
def MatcherCode.tokens : MatcherCode → Tokens
  | .literal string => matcher (owned (matchCall (code "rt :: literal") (text string)))
  | .regex number description =>
    let declared := code "&" ++ [.word ("RX_" ++ toString number)]
    matcher (owned (matchCall (code "rt :: regex") (declared ++ code "," ++ text description)))
  | .any => matcher (owned (code "rt :: any" ++ parentheses (code "input , start")))
  | .param => matcher (owned (matchCall (code "rt :: literal") (code "param")))
  | .rule function => parentheses (code "super :: rules ::" ++ name function)
  | .variable place =>
    let value := code "rt :: Value :: from"
      ++ parentheses ([.word place.value] ++ code ". clone" ++ parentheses [])
    matcher (braces (
      code "let text =" ++ value ++ code ". text" ++ parentheses [] ++ code ";"
        ++ owned (matchCall (code "rt :: literal") (code "& text"))))
  | .template function argument =>
    matcher (matchCall (code "super :: rules ::" ++ name function) (text argument))
  | .negative inner => matcher (owned (matchCall (code "rt :: not") inner.tokens))
  | .look inner => matcher (matchCall (code "rt :: look") inner.tokens)
  | .attempt inner => matcher (matchCall (code "rt :: attempt") inner.tokens)
  | .backtrack inner => matcher (matchCall (code "rt :: backtrack") inner.tokens)
  | .external function inner =>
    matcher (matchCall (name function) (code "&" ++ parentheses inner.tokens))
  | .group depth items kept =>
    let values := kept.map fun index => [TokenTree.word (Place.mk depth index).value]
    parentheses (code "|" ++ matchParameters ++ code "| ->" ++ outcomeType (code "_")
      ++ sequenceBody (statements depth 0 items) (tuple values))
  | .repeated mode inner => repetition mode inner.tokens

/-- The statements for the items of a sequence, given the number of the first one. -/
def statements (depth : Nat) : (index : Nat) → List MatcherCode → Tokens
  | _, [] => []
  | index, item :: items =>
    itemStatements ⟨depth, index⟩ item.tokens ++ statements depth (index + 1) items

end

/-! ### Functions -/

/-- The general value of a sequence of values. -/
def tupleValue (values : List Tokens) : Tokens :=
  code "rt :: Value :: tuple" ++ parentheses (code "vec !" ++ brackets (
    commaSeparated (values.map fun value => value ++ code ". into" ++ parentheses [])))

/-- The expression for the result of an alternative. -/
def AlternativeCode.resultTokens (alternative : AlternativeCode) (isUntyped : Bool) : Tokens :=
  let values := (List.range alternative.items.length).map fun index =>
    [TokenTree.word (Place.mk 0 index).value]
  match alternative.result, isUntyped with
  | some expression, true => code "rt :: Value :: from" ++ parentheses expression
  | some expression, false => expression
  | none, true => tupleValue values
  | none, false => tuple values

/-- The function of an alternative. -/
def AlternativeCode.tokens (rule : RuleCode) (alternative : AlternativeCode) : Tokens :=
  code "pub" ++ parentheses (code "super") ++ code "fn" ++ name alternative.function
    ++ parentheses (templateParameter rule.isTemplate ++ matchParameters)
    ++ code "->" ++ outcomeType rule.type
    ++ sequenceBody (statements 0 0 alternative.items) (alternative.resultTokens rule.isUntyped)

/-- The call of the function that skips blanks after a match. -/
def skippingBlanks : Tokens :=
  code ". map" ++ parentheses (code "| success | rt :: Success :: new"
    ++ parentheses (code "success . value , rt :: skip_whitespace"
      ++ parentheses (code "input , success . end")))

/-- The function of a rule: the choice of its alternatives. -/
def RuleCode.tokens (rule : RuleCode) (templateWhitespace : Bool) : Tokens :=
  let functionType :=
    (if rule.isTemplate then code "& dyn Fn" else code "fn") ++ parentheses (code "& str , usize")
      ++ code "->" ++ outcomeType rule.type
  let reference (alternative : AlternativeCode) : Tokens :=
    let function := code "super :: alternatives ::" ++ name alternative.function
    if rule.isTemplate then code "&" ++ closure (matchCall function (code "param")) else function
  code "pub fn" ++ name rule.function
    ++ parentheses (templateParameter rule.isTemplate ++ matchParameters)
    ++ code "->" ++ outcomeType rule.type
    ++ braces (code "let alternatives :"
      ++ brackets (functionType ++ code ";"
        ++ [.literal (toString rule.alternatives.length ++ "usize")])
      ++ code "=" ++ brackets (commaSeparated (rule.alternatives.map reference)) ++ code ";"
      ++ matchCall (code "rt :: choice") (code "alternatives")
      ++ (if rule.isTemplate && templateWhitespace then skippingBlanks else []))

/-- The declaration of a regular expression. -/
def RegexCode.tokens (regex : RegexCode) (number : Nat) : Tokens :=
  code "static ref" ++ [.word ("RX_" ++ toString number)]
    ++ code ": :: pegc :: regex :: Regex = rt :: anchored_regex"
    ++ parentheses (text regex.source ++ code "," ++ text regex.flags)
    ++ code ". expect" ++ parentheses (code "concat !" ++ parentheses (
      text "invalid regular expression " ++ code "," ++ text regex.description))
    ++ code ";"

/-! ### Parsers -/

/-- A module of the parser. -/
def moduleTokens (header content : Tokens) : Tokens :=
  allow "clippy :: all" ++ allow "non_snake_case" ++ allow "unused"
    ++ header ++ braces (code "use super :: * ;" ++ content)

/-- The function that matches the first rule at the beginning of a text. -/
def entryTokens (rule : RuleCode) : Tokens :=
  annotation (code "doc =" ++ [.literal "r\" Match the entry rule at the beginning of the input\""])
    ++ code "pub fn parse" ++ parentheses (code "input : & str")
    ++ code "->" ++ outcomeType rule.type
    ++ braces (code "rules ::" ++ name rule.function ++ parentheses (code "input , 0"))

namespace ParserCode

/-- The declarations of the regular expressions. -/
def regexTokens (parser : ParserCode) : Tokens :=
  code ":: pegc :: lazy_static :: lazy_static !" ++ braces (
    parser.regexes.zipIdx.flatMap fun (regex, number) => regex.tokens number)

/-- The functions of the alternatives. -/
def alternativeTokens (parser : ParserCode) : Tokens :=
  parser.rules.flatMap fun rule =>
    rule.alternatives.flatMap fun alternative => alternative.tokens rule

/-- The code without the pasta blocks. -/
def tokens (parser : ParserCode) : Tokens :=
  allow "unused_imports" ++ code "use :: pegc :: runtime as rt ;"
    ++ (match parser.entry? with
      | some rule => entryTokens rule
      | none => [])
    ++ moduleTokens (code "pub mod rules")
      (parser.rules.flatMap fun rule => rule.tokens parser.templateWhitespace)
    ++ moduleTokens (code "mod alternatives") (parser.regexTokens ++ parser.alternativeTokens)

/-- The text of a generated parser: the pasta blocks, the code, and the end of the line. -/
def print (parser : ParserCode) : String :=
  String.join (parser.pastas.map fun pasta =>
      String.ofList (Text.trim pasta.toList) ++ "\n\n")
    ++ printAll parser.tokens ++ "\n"

end ParserCode

end Peg.Generated
