/-
Peg/Host/Substitution.lean

From mappers to host expressions.

In the mapper of a generated parser, `$N`, `$startN` and `$endN` stand for the
variables of the N-th capture, and `text()` for the text of the alternative.
Everything else is host code and copied; in particular nothing is replaced
inside string and character literals, which is why the scan has to know where
these end.  A quote that begins no character literal begins a lifetime.

Each step takes one lexeme off the text and gives the text that replaces it.
-/
import Peg.Text.Letter
import Peg.Text.Basic

namespace Peg.Host

open Text

/-! ### Literals -/

/-- Split the rest of a quoted literal from what follows it; escaped quotes do not end it, and the
end of the text does. -/
def splitQuoted (quote : Char) : List Char → List Char × List Char
  | [] => ([], [])
  | c :: cs =>
    if c = '\\' then
      match cs with
      | [] => ([c], [])
      | escaped :: cs =>
        let (inner, rest) := splitQuoted quote cs
        (c :: escaped :: inner, rest)
    else if c = quote then ([c], cs)
    else
      let (inner, rest) := splitQuoted quote cs
      (c :: inner, rest)

/-- Split a character literal or the quote of a lifetime from what follows; the text is what comes
after the quote. -/
def splitCharLiteral (cs : List Char) : List Char × List Char :=
  match cs with
  | '\\' :: _ =>
    let (inner, rest) := splitQuoted '\'' cs
    ('\'' :: inner, rest)
  | c :: '\'' :: rest => (['\'', c, '\''], rest)
  | cs => (['\''], cs)

/-- Split at the first occurrence of a text, which belongs to the first part; the whole text is the
first part when there is none. -/
def splitAfter (closing : List Char) : List Char → List Char × List Char
  | [] => ([], [])
  | c :: cs =>
    match after? closing (c :: cs) with
    | some rest => (closing, rest)
    | none =>
      let (inner, rest) := splitAfter closing cs
      (c :: inner, rest)

/-- Split the hashes and the quoted part of a raw string from what follows, if they are there. -/
def splitRawString (cs : List Char) : List Char × List Char :=
  let hashes := cs.takeWhile (· == '#')
  match cs.drop hashes.length with
  | '"' :: body =>
    let (inner, rest) := splitAfter ('"' :: hashes) body
    (hashes ++ '"' :: inner, rest)
  | _ => ([], cs)

/-! ### Variables and words -/

/-- The variable for what follows a dollar sign, and the rest of the text. -/
def captureVariable? (cs : List Char) : Option (List Char × List Char) :=
  let (letter, index) :=
    match after? "start".toList cs, after? "end".toList cs with
    | some index, _ => ('s', index)
    | none, some index => ('e', index)
    | none, none => ('v', cs)
  let digits := index.takeWhile (·.isDigit)
  if digits.isEmpty then none else some (letter :: digits, index.drop digits.length)

/-- Whether a word of a mapper may begin with a character. -/
def startsWord (c : Char) : Bool :=
  isAlphabetic c || c == '_'

/-- Whether a word of a mapper may go on with a character. -/
def continuesWord (c : Char) : Bool :=
  isAlphanumeric c || c == '_'

/-- The replacement of the text of an alternative. -/
def matchedTextCall : List Char :=
  "rt::matched_text(input, start, end)".toList

/-- Replace a word, given what follows it. -/
def substituteWord (word rest : List Char) : List Char × List Char :=
  match String.ofList word, rest with
  | "text", '(' :: ')' :: rest => (matchedTextCall, rest)
  | "r", rest | "br", rest =>
    let (raw, rest) := splitRawString rest
    (word ++ raw, rest)
  | _, rest => (word, rest)

/-- Replace the first lexeme of a text, given its first character and the others. -/
def substituteLexeme (c : Char) (cs : List Char) : List Char × List Char :=
  if c = '"' then
    let (inner, rest) := splitQuoted '"' cs
    (c :: inner, rest)
  else if c = '\'' then splitCharLiteral cs
  else if c = '$' then (captureVariable? cs).getD (['$'], cs)
  else if startsWord c then
    let word := c :: cs.takeWhile continuesWord
    substituteWord word (cs.dropWhile continuesWord)
  else ([c], cs)

/-- Replace the lexemes of a text one after the other. -/
def substituteAll : (fuel : Nat) → List Char → List Char
  | fuel + 1, c :: cs =>
    let (replaced, rest) := substituteLexeme c cs
    replaced ++ substituteAll fuel rest
  | _, _ => []

/-- The host expression of a mapper. -/
def substituteMapper (code : String) : String :=
  String.ofList (substituteAll code.length code.toList)

end Peg.Host
