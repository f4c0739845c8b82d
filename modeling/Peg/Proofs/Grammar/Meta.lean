/-
Peg/Proofs/Grammar/Meta.lean

The program that reads grammars, written out.

`metaProgram` is the result of a compilation.  Here is the same program with
its regular expressions and mappers in the form the compiler gives them, rule
by rule and with names instead of numbers.  `metaProgram_eq` says that the
compilation ends in it; proofs about reading grammars use `Meta.program` and
never look at the compiler.
-/
import Peg.Grammar.Parse
import Peg.Proofs.Program.Same

namespace Peg

namespace Meta

/-! ### Names -/

/-- The rules of the grammar of grammars, in their order. -/
inductive Name where
  | grammar | item | pasta | pastaText | rule | tplHead | typeAnn
  | alternatives | altTail | alternative | mapper | mapperText | rep | modifier
  | simple | applyHead | literal | regex | any | variable | group | groupItem | template | apply
  | id | ws
  deriving DecidableEq

namespace Name

def all : List Name := [
  grammar, item, pasta, pastaText, rule, tplHead, typeAnn,
  alternatives, altTail, alternative, mapper, mapperText, rep, modifier,
  simple, applyHead, literal, regex, any, «variable», group, groupItem, template, apply,
  id, ws]

def number (name : Name) : Nat :=
  name.ctorIdx

def text : Name → String
  | grammar => "grammar" | item => "item" | pasta => "pasta" | pastaText => "pastaText"
  | rule => "rule" | tplHead => "tplHead" | typeAnn => "typeAnn"
  | alternatives => "alternatives" | altTail => "altTail" | alternative => "alternative"
  | mapper => "mapper" | mapperText => "mapperText" | rep => "rep" | modifier => "modifier"
  | simple => "simple" | applyHead => "applyHead" | literal => "literal" | regex => "regex"
  | any => "any" | «variable» => "variable" | group => "group" | groupItem => "groupItem"
  | template => "template" | apply => "apply" | id => "id" | ws => "ws"

end Name

/-! ### Regular expressions -/

/-- An expression at the beginning of the text it is given. -/
def anchored (body : Regex) : Regex :=
  .seq (.assertion .textStart) body

/-- A set without one character. -/
def except (c : Char) : Regex.CharSet :=
  .compl (.single c)

/-- A sequence of characters without line feeds. -/
def restOfLine : Regex :=
  .star true (.chars (except '\n'))

def typeSet : Regex.CharSet :=
  .compl (.union (.single '=') (.single ';'))

/-- The characters that a line after the first of a mapper may start with. -/
def mapperLineSet : Regex.CharSet :=
  .compl (.union (.union (.union (.single '|') (.single ';')) (.named .blank)) (.single '-'))

/-- A line after the first of a mapper. -/
def mapperLine : Regex :=
  .seq (.chars (.single '\n')) (.seq (.plus true (.chars (.union (.single ' ') (.single '\t'))))
    (.seq (.chars mapperLineSet) restOfLine))

def modifierSet : Regex.CharSet :=
  .union (.union (.single '?') (.single '*')) (.single '+')

/-- A backslash and another character of the line. -/
def escapePair : Regex :=
  .seq (.chars (.single '\\')) (.chars (except '\n'))

def literalSet : Regex.CharSet :=
  .compl (.union (.single '\'') (.single '\\'))

def literalBody : Regex :=
  .alt escapePair (.chars literalSet)

def regexSet : Regex.CharSet :=
  .compl (.union (.union (.single '/') (.single '\\')) (.single '\n'))

def regexBody : Regex :=
  .alt escapePair (.chars regexSet)

def flagSet : Regex.CharSet :=
  .union (.single 'i') (.single 's')

def digitSet : Regex.CharSet :=
  .range '0' '9'

def idStartSet : Regex.CharSet :=
  .union (.union (.range 'a' 'z') (.range 'A' 'Z')) (.single '_')

def idSet : Regex.CharSet :=
  .union (.union (.union (.range 'a' 'z') (.range 'A' 'Z')) digitSet) (.single '_')

/-- A blank or a comment. -/
def blankOrComment : Regex :=
  .alt (.chars (.named .blank))
    (.seq (.chars (.single '-')) (.seq (.chars (.single '-')) restOfLine))

/-- The regular expressions of the grammar of grammars. -/
inductive Token where
  | type | mapper | modifier | literal | regex | variable | template | id | blanks
  deriving DecidableEq

namespace Token

def expression : Token → Regex
  | type => .plus true (.chars typeSet)
  | mapper => .seq restOfLine (.star true mapperLine)
  | modifier => .chars modifierSet
  | literal =>
    .seq (.chars (.single '\'')) (.seq (.star true literalBody) (.chars (.single '\'')))
  | regex =>
    .seq (.chars (.single '/')) (.seq (.star true regexBody)
      (.seq (.chars (.single '/')) (.star true (.chars flagSet))))
  | «variable» => .seq (.chars (.single '$')) (.plus true (.chars digitSet))
  | template => .star true (.chars (except '`'))
  | id => .seq (.chars idStartSet) (.star true (.chars idSet))
  | blanks => .star true blankOrComment

def source : Token → String
  | type => "[^=;]+"
  | mapper => "[^\\n]*(\\n[ \\t]+[^|;\\s-][^\\n]*)*"
  | modifier => "[?*+]"
  | literal => "'(\\\\.|[^'\\\\])*'"
  | regex => "/(\\\\.|[^/\\\\\\n])*/[is]*"
  | «variable» => "\\$[0-9]+"
  | template => "[^`]*"
  | id => "[a-zA-Z_][a-zA-Z0-9_]*"
  | blanks => "(\\s|--[^\\n]*)*"

def matcher (token : Token) : Matcher :=
  .regex (anchored token.expression) (Regex.describe token.source "")

end Token

/-! ### Rules -/

def call (name : Name) : Matcher :=
  .rule name.number

def optional (m : Matcher) : Matcher :=
  .repeated m .optional

/-- An alternative that gives a node. -/
def node (items : List Matcher) (kind : String) (captures : List Nat) : CompiledAlternative :=
  ⟨items, some (.node kind (captures.map .capture))⟩

/-- An alternative that gives the value of one item. -/
def pick (items : List Matcher) (index : Nat) : CompiledAlternative :=
  ⟨items, some (.capture index)⟩

/-- An alternative of one item. -/
def only (m : Matcher) : CompiledAlternative :=
  ⟨[m], none⟩

def alternativesOf : Name → List CompiledAlternative
  | .grammar => [node [call .ws, .repeated (call .item) .any] "grammar" [1]]
  | .item => [only (call .pasta), only (call .rule)]
  | .pasta =>
    [node [.literal "%\x7b", call .pastaText, .literal "\x7d%", call .ws] "pasta" [1]]
  | .pastaText => [⟨[.repeated (.negative (.literal "\x7d%")) .any], some .text⟩]
  | .rule => [
    node [.look (call .tplHead), optional (call .id), .literal "`", call .id, .literal "`",
      call .ws, optional (call .typeAnn), .literal "=", call .ws, call .alternatives,
      .literal ";", call .ws] "templateRule" [1, 3, 6, 9],
    node [call .id, call .ws, optional (call .typeAnn), .literal "=", call .ws,
      call .alternatives, .literal ";", call .ws] "rule" [0, 2, 5]]
  | .tplHead => [⟨[optional (call .id), .literal "`"], none⟩]
  | .typeAnn => [pick [.literal ":", call .ws, Token.type.matcher] 2]
  | .alternatives =>
    [⟨[call .alternative, .repeated (call .altTail) .any],
      some (.concat [.list [.capture 0], .capture 1])⟩]
  | .altTail => [pick [.literal "|", call .ws, call .alternative] 2]
  | .alternative =>
    [node [.repeated (call .rep) .oneOrMore, optional (call .mapper)] "alternative" [0, 1]]
  | .mapper => [node [.literal "%%", call .mapperText, call .ws] "mapper" [1]]
  | .mapperText => [only Token.mapper.matcher]
  | .rep => [node [call .simple, optional (call .modifier), call .ws] "rep" [0, 1]]
  | .modifier => [only Token.modifier.matcher]
  | .simple => [
    only (call .literal), only (call .regex), only (call .any), only (call .variable),
    only (call .group), pick [.look (call .tplHead), call .template] 1,
    pick [.look (call .applyHead), call .apply] 1, node [call .id] "id" [0]]
  | .applyHead => [⟨[call .id, .literal "("], none⟩]
  | .literal => [node [Token.literal.matcher] "literal" [0]]
  | .regex => [node [Token.regex.matcher] "regex" [0]]
  | .any => [node [.literal "."] "any" []]
  | .variable => [node [Token.variable.matcher] "variable" [0]]
  | .group =>
    [node [.literal "(", call .ws, .repeated (call .groupItem) .oneOrMore, .literal ")"]
      "group" [2]]
  | .groupItem => [node [optional (.literal "!"), call .ws, call .rep] "groupItem" [0, 2]]
  | .template =>
    [node [optional (call .id), .literal "`", Token.template.matcher, .literal "`"]
      "template" [0, 2]]
  | .apply =>
    [node [call .id, .literal "(", call .ws, call .simple, call .ws, .literal ")"]
      "apply" [0, 3]]
  | .id => [only Token.id.matcher]
  | .ws => [only Token.blanks.matcher]

def compiledRule (name : Name) : CompiledRule :=
  ⟨.simple name.text, false, alternativesOf name, {}⟩

/-- The program that reads grammars. -/
def program : Program :=
  ⟨Name.all.map compiledRule⟩

theorem rules_number (name : Name) : program.rules[name.number]? = some (compiledRule name) := by
  cases name <;> rfl

end Meta

/-- The grammar of grammars compiles to the program above. -/
theorem metaProgram_eq : metaProgram = .ok Meta.program :=
  Program.eq_ok_of_same (by decide +kernel)

/-! ### Texts as characters -/

namespace Grammar

/-- The grammar that characters stand for. -/
def ofChars (text : List Char) : Except CompileError Grammar :=
  match Meta.program.execute text none false with
  | .error error => .error (syntaxError error)
  | .ok tree => ofMatch text tree

theorem parse_ofList (text : List Char) : parse (String.ofList text) = ofChars text := by
  rw [parse, metaProgram_eq, String.toList_ofList]
  rfl

/-- What is computed of the grammar of a text is true of the grammar that is read from it. -/
theorem exists_parse_of_any {text : List Char} {p : Grammar → Bool}
    (h : (ofChars text).toOption.any p = true) :
    ∃ grammar, parse (String.ofList text) = .ok grammar ∧ p grammar = true := by
  obtain ⟨grammar, hgrammar, hp⟩ := (Option.any_eq_true _ _).1 h
  exact ⟨grammar, (parse_ofList text).trans (eq_ok_of_toOption hgrammar), hp⟩

end Grammar

end Peg
