/-
Peg/Proofs/Mapper/Grammar.lean

The grammar of mapper expressions, as a derivation of texts.

    expr := term ('+' term)*
    term := $N | $startN | $endN | text() | start | end | 'str' | "str"
          | [expr, ...] | name(expr, ...) | (expr)

Every nonterminal is a relation between a text and what the text stands for.
A text begins with the blanks before its first token and ends with its last
token, so texts that are put one after the other have blanks between their
tokens and nowhere else; only the whole may end with blanks.

The grammar knows nothing of how a text is read.  That it has one tree for a
text follows from the reader, in `Peg/Proofs/Mapper/Derivation.lean`.
-/
import Peg.Mapper.Parser
import Peg.Proofs.Grammar.Printable

namespace Peg.MapperExpr

open Text

/-! ### Tokens -/

/-- All characters are blank. -/
def Blanks (cs : List Char) : Prop :=
  ∀ c ∈ cs, isBlank c = true

/-- A token after blanks. -/
def Spaced (token cs : List Char) : Prop :=
  ∃ blanks, Blanks blanks ∧ cs = blanks ++ token

/-- Digits, at least one, for a number that fits a machine word. -/
structure IsIndex (digits : List Char) (index : Nat) : Prop where
  nonempty : digits ≠ []
  decimal : ∀ c ∈ digits, c.isDigit = true
  value : Nat.ofDigitChars 10 digits 0 = index
  fits : index < UInt64.size

/-- What is between the quotes of a string constant, and the text it stands for.  A backslash
takes the next character along, and three letters stand for something else then. -/
inductive Spells (quote : Char) : List Char → List Char → Prop where
  | nil : Spells quote [] []
  | plain {c : Char} {cs text : List Char} (hquote : c ≠ quote) (hbackslash : c ≠ '\\')
      (h : Spells quote cs text) : Spells quote (c :: cs) (c :: text)
  | lineFeed {cs text : List Char} (h : Spells quote cs text) :
      Spells quote ('\\' :: 'n' :: cs) ('\n' :: text)
  | tab {cs text : List Char} (h : Spells quote cs text) :
      Spells quote ('\\' :: 't' :: cs) ('\t' :: text)
  | carriageReturn {cs text : List Char} (h : Spells quote cs text) :
      Spells quote ('\\' :: 'r' :: cs) ('\r' :: text)
  | itself {c : Char} {cs text : List Char} (hfeed : c ≠ 'n') (htab : c ≠ 't') (hreturn : c ≠ 'r')
      (h : Spells quote cs text) : Spells quote ('\\' :: c :: cs) (c :: text)

/-! ### Expressions -/

mutual

/-- `expr := term ('+' term)*`.  A term alone is no sum. -/
inductive IsSum : List Char → MapperExpr → Prop where
  | single {cs : List Char} {term : MapperExpr} (hterm : IsTerm cs term) : IsSum cs term
  | sum {cs cs' : List Char} {first : MapperExpr} {others : List MapperExpr}
      (hfirst : IsTerm cs first) (hothers : AreMoreTerms cs' others) (hne : others ≠ []) :
      IsSum (cs ++ cs') (.concat (first :: others))

/-- `('+' term)*` -/
inductive AreMoreTerms : List Char → List MapperExpr → Prop where
  | none : AreMoreTerms [] []
  | more {plus cs cs' : List Char} {term : MapperExpr} {terms : List MapperExpr}
      (hplus : Spaced ['+'] plus) (hterm : IsTerm cs term) (hterms : AreMoreTerms cs' terms) :
      AreMoreTerms (plus ++ (cs ++ cs')) (term :: terms)

/-- What can stand between plus signs. -/
inductive IsTerm : List Char → MapperExpr → Prop where
  | capture {cs digits : List Char} {index : Nat} (hindex : IsIndex digits index)
      (h : Spaced ('$' :: digits) cs) : IsTerm cs (.capture index)
  | startOf {cs digits : List Char} {index : Nat} (hindex : IsIndex digits index)
      (h : Spaced ('$' :: "start".toList ++ digits) cs) : IsTerm cs (.startOf index)
  | endOf {cs digits : List Char} {index : Nat} (hindex : IsIndex digits index)
      (h : Spaced ('$' :: "end".toList ++ digits) cs) : IsTerm cs (.endOf index)
  | text {word opening closing : List Char} (hword : Spaced "text".toList word)
      (hopening : Spaced ['('] opening) (hclosing : Spaced [')'] closing) :
      IsTerm (word ++ (opening ++ closing)) .text
  | start {cs : List Char} (h : Spaced "start".toList cs) : IsTerm cs .start
  | stop {cs : List Char} (h : Spaced "end".toList cs) : IsTerm cs .stop
  | str {quote : Char} {cs inner text : List Char} (hquote : quote = '\'' ∨ quote = '"')
      (hinner : Spells quote inner text) (h : Spaced (quote :: (inner ++ [quote])) cs) :
      IsTerm cs (.str (String.ofList text))
  | list {opening cs closing : List Char} {items : List MapperExpr}
      (hopening : Spaced ['['] opening) (hitems : AreItems cs items)
      (hclosing : Spaced [']'] closing) : IsTerm (opening ++ (cs ++ closing)) (.list items)
  | node {name : String} {word opening cs closing : List Char} {arguments : List MapperExpr}
      (hname : IsIdentifier name) (hother : name ≠ "text") (hword : Spaced name.toList word)
      (hopening : Spaced ['('] opening) (harguments : AreItems cs arguments)
      (hclosing : Spaced [')'] closing) :
      IsTerm (word ++ (opening ++ (cs ++ closing))) (.node name arguments)
  | parentheses {opening cs closing : List Char} {expr : MapperExpr}
      (hopening : Spaced ['('] opening) (hexpr : IsSum cs expr) (hclosing : Spaced [')'] closing) :
      IsTerm (opening ++ (cs ++ closing)) expr

/-- Expressions with commas between them, or nothing. -/
inductive AreItems : List Char → List MapperExpr → Prop where
  | none : AreItems [] []
  | some {cs : List Char} {items : List MapperExpr} (hitems : AreSeparated cs items) :
      AreItems cs items

/-- `expr (',' expr)*` -/
inductive AreSeparated : List Char → List MapperExpr → Prop where
  | last {cs : List Char} {item : MapperExpr} (hitem : IsSum cs item) : AreSeparated cs [item]
  | more {cs comma cs' : List Char} {item : MapperExpr} {items : List MapperExpr}
      (hitem : IsSum cs item) (hcomma : Spaced [','] comma) (hitems : AreSeparated cs' items) :
      AreSeparated (cs ++ (comma ++ cs')) (item :: items)

end

/-- The whole text is an expression, and blanks after it. -/
def Derives (code : List Char) (expr : MapperExpr) : Prop :=
  ∃ cs blanks, IsSum cs expr ∧ Blanks blanks ∧ code = cs ++ blanks

end Peg.MapperExpr
