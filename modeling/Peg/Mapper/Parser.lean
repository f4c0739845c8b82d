/-
Peg/Mapper/Parser.lean

Reading mapper expressions:

    expr := term ('+' term)*
    term := $N | $startN | $endN | text() | start | end | 'str' | "str"
          | [expr, ...] | name(expr, ...) | (expr)

Blanks may stand between tokens, but not inside those that start with a
dollar sign.  The names of the two offsets are ordinary names when an
argument list follows, and `text` takes an empty one.

The readers work on what is left of the text and return what they leave; an
error keeps the rest of the text at which it was found, from which the offset
that is reported is computed in the end.
-/
import Peg.Mapper.Basic
import Peg.Text.Blank
import Peg.Grammar.Token

namespace Peg.MapperExpr

open Text

/-! ### Errors -/

/-- What is wrong with a mapper. -/
inductive Mistake where
  | missingIndex
  | missingSymbol (symbol : Char)
  | missingExpression
  | unexpectedEnd
  | unknownName (name : String)
  | textWithArguments
  | unterminatedString
  | trailingContent
  deriving DecidableEq, Repr

/-- A mistake in words. -/
def Mistake.message : Mistake → String
  | .missingIndex => "expected a capture index after '$'"
  | .missingSymbol symbol => "expected '" ++ symbol.toString ++ "'"
  | .missingExpression => "expected an expression"
  | .unexpectedEnd => "unexpected end of mapper"
  | .unknownName name => "unknown name '" ++ name ++ "'"
  | .textWithArguments => "text() takes no argument"
  | .unterminatedString => "unterminated string"
  | .trailingContent => "unexpected trailing content"

/-- A mistake and where it is. -/
structure ParseError where
  offset : Nat
  mistake : Mistake
  deriving DecidableEq, Repr

/-- The error as a sentence. -/
def ParseError.message (error : ParseError) : String :=
  error.mistake.message ++ " (at character " ++ toString error.offset ++ ")"

/-! ### Tokens -/

/-- The result of a reader with the rest of the text, or a mistake with the rest at which it was
found. -/
abbrev Reader (α : Type) := Except (Mistake × List Char) (α × List Char)

/-- The rest of the text after blanks and a symbol, or after the blanks alone. -/
def eat (symbol : Char) (cs : List Char) : Bool × List Char :=
  match trimStart cs with
  | c :: cs => if c = symbol then (true, cs) else (false, c :: cs)
  | [] => (false, [])

/-- The character that an escaped character of a string constant stands for. -/
def escapedChar : Char → Char
  | 'n' => '\n'
  | 't' => '\t'
  | 'r' => '\r'
  | c => c

/-- Read the rest of a string constant, after the quote that opens it. -/
def readString (quote : Char) : List Char → Option (List Char × List Char)
  | [] => none
  | c :: cs =>
    if c = quote then some ([], cs)
    else if c = '\\' then
      match cs with
      | [] => none
      | c :: cs => (readString quote cs).map fun (inner, rest) => (escapedChar c :: inner, rest)
    else (readString quote cs).map fun (inner, rest) => (c :: inner, rest)

/-- Read a variable, after its dollar sign. -/
def readVariable (cs : List Char) : Reader MapperExpr :=
  let letters := cs.takeWhile (·.isAlpha)
  let cs := cs.drop letters.length
  let make? : Option (Nat → MapperExpr) := match String.ofList letters with
    | "" => some .capture
    | "start" => some .startOf
    | "end" => some .endOf
    | _ => none
  match make? with
  | none => .error (.missingIndex, cs)
  | some make =>
    let digits := cs.takeWhile (·.isDigit)
    let cs := cs.drop digits.length
    match Token.parseIndex? digits with
    | some index => .ok (make index, cs)
    | none => .error (.missingIndex, cs)

/-- Whether a name may begin with a character. -/
def isNameStart (c : Char) : Bool :=
  c.isAlpha || c == '_'

/-- Whether a name may go on with a character. -/
def isNameChar (c : Char) : Bool :=
  c.isAlphanum || c == '_'

/-! ### Expressions -/

mutual

/-- Read a sum. -/
def readSum : (fuel : Nat) → List Char → Reader MapperExpr
  | 0, cs => .error (.unexpectedEnd, cs)
  | fuel + 1, cs =>
    match readTerm fuel cs with
    | .error error => .error error
    | .ok (term, cs) =>
      match readMoreTerms fuel cs with
      | .error error => .error error
      | .ok ([], cs) => .ok (term, cs)
      | .ok (terms, cs) => .ok (.concat (term :: terms), cs)

/-- Read the terms after the first one of a sum, with the plus signs before them. -/
def readMoreTerms : (fuel : Nat) → List Char → Reader (List MapperExpr)
  | 0, cs => .error (.unexpectedEnd, cs)
  | fuel + 1, cs =>
    match eat '+' cs with
    | (false, cs) => .ok ([], cs)
    | (true, cs) =>
      match readTerm fuel cs with
      | .error error => .error error
      | .ok (term, cs) =>
        match readMoreTerms fuel cs with
        | .error error => .error error
        | .ok (terms, cs) => .ok (term :: terms, cs)

/-- Read a term. -/
def readTerm : (fuel : Nat) → List Char → Reader MapperExpr
  | 0, cs => .error (.unexpectedEnd, cs)
  | fuel + 1, cs =>
    match trimStart cs with
    | [] => .error (.unexpectedEnd, [])
    | '$' :: cs => readVariable cs
    | '[' :: cs =>
      match readList fuel ']' cs with
      | .error error => .error error
      | .ok (items, cs) => .ok (.list items, cs)
    | '(' :: cs =>
      match readSum fuel cs with
      | .error error => .error error
      | .ok (expr, cs) =>
        match eat ')' cs with
        | (true, cs) => .ok (expr, cs)
        | (false, cs) => .error (.missingSymbol ')', cs)
    | c :: cs =>
      if c = '\'' || c = '"' then
        match readString c cs with
        | some (inner, rest) => .ok (.str (String.ofList inner), rest)
        | none => .error (.unterminatedString, cs)
      else if isNameStart c then
        let name := String.ofList ((c :: cs).takeWhile isNameChar)
        match eat '(' (cs.dropWhile isNameChar) with
        | (false, rest) =>
          match name with
          | "start" => .ok (.start, rest)
          | "end" => .ok (.stop, rest)
          | _ => .error (.unknownName name, c :: cs)
        | (true, rest) =>
          match readList fuel ')' rest with
          | .error error => .error error
          | .ok (arguments, rest) =>
            if name = "text" then
              if arguments.isEmpty then .ok (.text, rest)
              else .error (.textWithArguments, c :: cs)
            else .ok (.node name arguments, rest)
      else .error (.missingExpression, c :: cs)

/-- Read expressions between commas up to a closing symbol, which is read too. -/
def readList : (fuel : Nat) → (closing : Char) → List Char → Reader (List MapperExpr)
  | 0, _, cs => .error (.unexpectedEnd, cs)
  | fuel + 1, closing, cs =>
    match eat closing cs with
    | (true, cs) => .ok ([], cs)
    | (false, cs) => readItems fuel closing cs

/-- Read at least one expression of a list. -/
def readItems : (fuel : Nat) → (closing : Char) → List Char → Reader (List MapperExpr)
  | 0, _, cs => .error (.unexpectedEnd, cs)
  | fuel + 1, closing, cs =>
    match readSum fuel cs with
    | .error error => .error error
    | .ok (item, cs) =>
      match eat closing cs with
      | (true, cs) => .ok ([item], cs)
      | (false, cs) =>
        match eat ',' cs with
        | (false, cs) => .error (.missingSymbol ',', cs)
        | (true, cs) =>
          match readItems fuel closing cs with
          | .error error => .error error
          | .ok (items, cs) => .ok (item :: items, cs)

end

/-- The expression that a mapper's text stands for. -/
def parse (code : String) : Except ParseError MapperExpr :=
  let cs := code.toList
  let errorAt := fun (mistake : Mistake) (rest : List Char) =>
    Except.error (ParseError.mk (size cs - size rest) mistake)
  match readSum (4 * cs.length + 4) cs with
  | .error (mistake, rest) => errorAt mistake rest
  | .ok (expr, rest) =>
    match trimStart rest with
    | [] => .ok expr
    | rest => errorAt .trailingContent rest

end Peg.MapperExpr
