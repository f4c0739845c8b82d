/-
Peg/Host/Lexer.lean

Tokens from the text of host code.

Blanks and comments separate tokens and are dropped, except for documentation
comments, which stand for attributes.  Literals keep their spelling.  A number
followed by two dots or by a name ends before the dot, so that `1..2` is a
range and `1.max(2)` a call.

`lexTree` reads trees up to a closing bracket; its fuel is the length of the
text, each character of which is read once.
-/
import Peg.Host.Token
import Peg.Text.Letter
import Peg.Text.Blank
import Peg.Text.Basic

namespace Peg.Host

open Text

/-- A reader of a part of the text, which gives what it read and the rest. -/
abbrev Lexer (α : Type) := List Char → Option (α × List Char)

/-! ### Blanks and comments -/

/-- The rest of the text after a block comment, in which others may be nested `depth` deep. -/
def skipBlockComment : (depth : Nat) → List Char → Option (List Char)
  | 0, cs => some cs
  | _ + 1, [] => none
  | depth + 1, '*' :: '/' :: cs => skipBlockComment depth cs
  | depth + 1, '/' :: '*' :: cs => skipBlockComment (depth + 2) cs
  | depth + 1, _ :: cs => skipBlockComment (depth + 1) cs

/-- The text of a line comment and the rest of the text. -/
def splitLine (cs : List Char) : List Char × List Char :=
  (cs.takeWhile (· != '\n'), cs.dropWhile (· != '\n'))

/-- The blanks of host code, which include two marks of direction. -/
def isHostBlank (c : Char) : Bool :=
  isBlank c || c == '\u200e' || c == '\u200f'

/-- The rest of the text after blanks and ordinary comments. -/
def skipTrivia : (fuel : Nat) → List Char → List Char
  | fuel + 1, '/' :: '/' :: cs =>
    let isDocumentation := match cs with
      | '/' :: '/' :: _ => false
      | '/' :: _ | '!' :: _ => true
      | _ => false
    if isDocumentation then '/' :: '/' :: cs else skipTrivia fuel (splitLine cs).2
  | fuel + 1, '/' :: '*' :: '*' :: '/' :: cs => skipTrivia fuel cs
  | fuel + 1, '/' :: '*' :: cs =>
    let isDocumentation := match cs with
      | '*' :: '*' :: _ => false
      | '*' :: _ | '!' :: _ => true
      | _ => false
    if isDocumentation then '/' :: '*' :: cs
    else
      match skipBlockComment 1 cs with
      | some rest => skipTrivia fuel rest
      | none => '/' :: '*' :: cs
  | fuel + 1, c :: cs => if isHostBlank c then skipTrivia fuel cs else c :: cs
  | _, cs => cs

/-! ### Words -/

/-- Whether a word may begin with a character. -/
def startsHostWord (c : Char) : Bool :=
  c == '_' || startsIdentifier c

/-- Whether a word may go on with a character. -/
def continuesHostWord (c : Char) : Bool :=
  continuesIdentifier c

/-- Read a word. -/
def lexPlainWord : Lexer (List Char)
  | [] => none
  | c :: cs =>
    if startsHostWord c then
      some (c :: cs.takeWhile continuesHostWord, cs.dropWhile continuesHostWord)
    else none

/-- Read a word or a raw identifier. -/
def lexWord (cs : List Char) : Option (List Char × List Char) :=
  match cs with
  | 'r' :: '#' :: rest =>
    match lexPlainWord rest with
    | some (word, rest) =>
      if ["_", "self", "Self", "super", "crate"].contains (String.ofList word) then none
      else some ('r' :: '#' :: word, rest)
    | none => lexPlainWord cs
  | _ => lexPlainWord cs

/-- The beginnings of literals that a word may not be read from. -/
def literalBeginnings : List String :=
  ["r\"", "r#\"", "r##", "b\"", "b'", "br\"", "br#", "c\"", "cr\"", "cr#"]

/-- Read the suffix of a literal, if there is one. -/
def lexSuffix (cs : List Char) : List Char × List Char :=
  (lexPlainWord cs).getD ([], cs)

/-! ### Quoted literals -/

/-- Whether a character is a hexadecimal digit. -/
def isHexDigit (c : Char) : Bool :=
  (hexDigit? c).isSome

/-- What kind of characters a quoted literal holds. -/
inductive Quoted where
  | text
  | bytes
  | cText
  deriving DecidableEq

/-- Read the digits of a Unicode escape up to the closing brace. -/
def lexUnicodeEscape (cs : List Char) : Option (List Char × List Char) :=
  let inner := cs.takeWhile (· != '\x7d')
  let digits := inner.filter (· != '_')
  match cs.drop inner.length with
  | closing :: rest =>
    let isCharacter := ((numberOf? 16 digits).bind charOf?).isSome
    if isCharacter && digits.length ≤ 6 && inner.head? != some '_' then
      some (inner ++ [closing], rest)
    else none
  | [] => none

/-- Read an escape, after its backslash. -/
def lexEscape (kind : Quoted) : Lexer (List Char)
  | 'x' :: high :: low :: rest =>
    if isHexDigit high && isHexDigit low && (kind != .text || high.toNat ≤ '7'.toNat) then
      some (['x', high, low], rest)
    else none
  | 'u' :: '\x7b' :: rest =>
    if kind == .bytes then none
    else (lexUnicodeEscape rest).map fun (inner, rest) => ('u' :: '\x7b' :: inner, rest)
  | c :: rest => if "nrt\\0'\"".toList.contains c then some ([c], rest) else none
  | [] => none

/-- Whether a character may stand in a quoted literal as it is. -/
def Quoted.allows (kind : Quoted) (c : Char) : Bool :=
  kind != .bytes || c.toNat < 0x80

/-- Read the rest of a string literal, after its opening quote. -/
def lexString (kind : Quoted) : (fuel : Nat) → Lexer (List Char)
  | 0, _ | _, [] => none
  | fuel + 1, c :: cs =>
    if c == '"' then some (['"'], cs)
    else if c == '\r' then
      match cs with
      | '\n' :: cs =>
        (lexString kind fuel cs).map fun (inner, rest) => ('\r' :: '\n' :: inner, rest)
      | _ => none
    else if c == '\\' then
      match cs with
      | '\n' :: cs =>
        (lexString kind fuel cs).map fun (inner, rest) => ('\\' :: '\n' :: inner, rest)
      | '\r' :: '\n' :: cs =>
        (lexString kind fuel cs).map fun (inner, rest) => ('\\' :: '\r' :: '\n' :: inner, rest)
      | cs =>
        match lexEscape kind cs with
        | some (escape, cs) =>
          (lexString kind fuel cs).map fun (inner, rest) => ('\\' :: escape ++ inner, rest)
        | none => none
    else if kind.allows c then (lexString kind fuel cs).map fun (inner, rest) => (c :: inner, rest)
    else none

/-- Read the rest of a raw string literal, after its last letter. -/
def lexRawString (kind : Quoted) (cs : List Char) : Option (List Char × List Char) :=
  let hashes := cs.takeWhile (· == '#')
  let rec body : List Char → Option (List Char × List Char)
    | [] => none
    | c :: cs =>
      match after? ('"' :: hashes) (c :: cs) with
      | some rest => some ('"' :: hashes, rest)
      | none =>
        if kind.allows c && (c != '\r' || cs.head? == some '\n') then
          (body cs).map fun (inner, rest) => (c :: inner, rest)
        else none
  match cs.drop hashes.length with
  | '"' :: rest =>
    if hashes.length > 255 then none
    else (body rest).map fun (inner, rest) => (hashes ++ '"' :: inner, rest)
  | _ => none

/-- Read the rest of a character literal, after its opening quote. -/
def lexCharLiteral (kind : Quoted) (cs : List Char) : Option (List Char × List Char) :=
  let closed := fun (inner : List Char) (rest : List Char) =>
    match rest with
    | '\'' :: rest => some (inner ++ ['\''], rest)
    | _ => none
  match cs with
  | '\\' :: cs =>
    match lexEscape kind cs with
    | some (escape, rest) => closed ('\\' :: escape) rest
    | none => none
  | c :: rest => if kind.allows c then closed [c] rest else none
  | [] => none

/-! ### Numbers -/

/-- Read the digits of an integer after the mark of its base. -/
def lexDigits (base : Nat) : (isEmpty : Bool) → Lexer (List Char)
  | isEmpty, [] => if isEmpty then none else some ([], [])
  | isEmpty, c :: cs =>
    let next := fun isEmpty => (lexDigits base isEmpty cs).map fun (more, rest) => (c :: more, rest)
    if c.isDigit then if c.toNat - '0'.toNat < base then next false else none
    else if base == 16 && isHexDigit c then next false
    else if c == '_' && !(isEmpty && base == 10) then next isEmpty
    else if isEmpty then none
    else some ([], c :: cs)

/-- Whether a text begins with something that cannot follow a number. -/
def continuesNumber (cs : List Char) : Bool :=
  cs.head?.any continuesHostWord

/-- Read an integer. -/
def lexInteger (cs : List Char) : Option (List Char × List Char) :=
  let digits := match cs with
    | '0' :: 'x' :: rest =>
      (lexDigits 16 true rest).map fun (more, rest) => ('0' :: 'x' :: more, rest)
    | '0' :: 'o' :: rest =>
      (lexDigits 8 true rest).map fun (more, rest) => ('0' :: 'o' :: more, rest)
    | '0' :: 'b' :: rest =>
      (lexDigits 2 true rest).map fun (more, rest) => ('0' :: 'b' :: more, rest)
    | cs => lexDigits 10 true cs
  match digits with
  | some (digits, rest) =>
    let (suffix, rest) := lexSuffix rest
    if continuesNumber rest then none else some (digits ++ suffix, rest)
  | none => none

/-- Whether a character may be among the digits of a number. -/
def isDigitOrUnderscore (c : Char) : Bool :=
  c.isDigit || c == '_'

/-- Read an exponent, if there is one with digits. -/
def lexExponent : Lexer (List Char)
  | c :: cs =>
    if c == 'e' || c == 'E' then
      let (sign, cs) := match cs with
        | '+' :: cs => (['+'], cs)
        | '-' :: cs => (['-'], cs)
        | cs => ([], cs)
      let digits := cs.takeWhile isDigitOrUnderscore
      if digits.any (·.isDigit) then some (c :: sign ++ digits, cs.drop digits.length) else none
    else none
  | [] => none

/-- Read a number with a dot or an exponent. -/
def lexFloat (cs : List Char) : Option (List Char × List Char) :=
  let whole := cs.takeWhile isDigitOrUnderscore
  let number : Option (List Char × List Char) :=
    if !(whole.head?.any (·.isDigit)) then none
    else
      match cs.drop whole.length with
      | '.' :: rest =>
        if rest.head?.any fun c => c == '.' || startsHostWord c then none
        else
          let digits := rest.takeWhile isDigitOrUnderscore
          let rest := rest.drop digits.length
          let fraction := whole ++ '.' :: digits
          match lexExponent rest with
          | some (exponent, rest) => some (fraction ++ exponent, rest)
          | none => some (fraction, rest)
      | rest => (lexExponent rest).map fun (exponent, rest) => (whole ++ exponent, rest)
  match number with
  | some (number, rest) =>
    let (suffix, rest) := lexSuffix rest
    if continuesNumber rest then none else some (number ++ suffix, rest)
  | none => none

/-! ### Tokens -/

/-- Read what comes after the beginning of a literal, and its suffix. -/
def lexLiteralAfter (beginning : String) (cs : List Char) (lexer : Lexer (List Char)) :
    Option (TokenTree × List Char) :=
  match after? beginning.toList cs with
  | none => none
  | some rest =>
    match lexer rest with
    | none => none
    | some (inner, rest) =>
      let (suffix, rest) := lexSuffix rest
      some (.literal (String.ofList (beginning.toList ++ inner ++ suffix)), rest)

/-- Read a literal. -/
def lexLiteral (cs : List Char) : Option (TokenTree × List Char) :=
  let fuel := cs.length
  let number (lexer : Lexer (List Char)) : Option (TokenTree × List Char) :=
    (lexer cs).map fun (text, rest) => (TokenTree.literal (String.ofList text), rest)
  lexLiteralAfter "\"" cs (lexString .text fuel)
    <|> lexLiteralAfter "r" cs (lexRawString .text)
    <|> lexLiteralAfter "b\"" cs (lexString .bytes fuel)
    <|> lexLiteralAfter "br" cs (lexRawString .bytes)
    <|> lexLiteralAfter "c\"" cs (lexString .cText fuel)
    <|> lexLiteralAfter "cr" cs (lexRawString .cText)
    <|> lexLiteralAfter "b'" cs (lexCharLiteral .bytes)
    <|> lexLiteralAfter "'" cs (lexCharLiteral .text)
    <|> number lexFloat
    <|> number lexInteger

/-- The first character of a text, if it is a punctuation mark that begins no comment. -/
def markAt? : List Char → Option Char
  | '/' :: '/' :: _ | '/' :: '*' :: _ => none
  | c :: _ => if "~!@#$%^&*-=+|;:,<.>/?'".toList.contains c then some c else none
  | [] => none

/-- Read a punctuation mark.  A quote has to begin a lifetime. -/
def lexMark (cs : List Char) : Option (TokenTree × List Char) :=
  match markAt? cs, cs with
  | some '\'', _ :: rest =>
    match lexWord rest with
    | some (_, '\'' :: _) | none => none
    | some _ => some (.mark '\'' true, rest)
  | some c, _ :: rest => some (.mark c (markAt? rest).isSome, rest)
  | _, _ => none

/-- Read a word that begins no literal. -/
def lexWordToken (cs : List Char) : Option (TokenTree × List Char) :=
  if literalBeginnings.any fun beginning => (after? beginning.toList cs).isSome then none
  else (lexWord cs).map fun (word, rest) => (.word (String.ofList word), rest)

/-- Read a token that is no group. -/
def lexLeaf (cs : List Char) : Option (TokenTree × List Char) :=
  lexLiteral cs <|> lexMark cs <|> lexWordToken cs

/-- The attribute that a documentation comment stands for. -/
def documentation (inner : Bool) (text : List Char) : List TokenTree :=
  .mark '#' false :: (if inner then [.mark '!' false] else []) ++
    [.group .bracket [.word "doc", .mark '=' false, .literal (quote (String.ofList text))]]

/-- Whether there is a carriage return in a text that no line feed comes after. -/
def hasBareReturn : List Char → Bool
  | [] => false
  | '\r' :: '\n' :: cs => hasBareReturn cs
  | '\r' :: _ => true
  | _ :: cs => hasBareReturn cs

/-- The documentation that a comment with a text is, if it may have this text. -/
def documented? (inner : Bool) (text rest : List Char) : Option (List TokenTree × List Char) :=
  if hasBareReturn text then none else some (documentation inner text, rest)

/-- Read a documentation comment up to the end of its line. -/
def documentedLine? (inner : Bool) (cs : List Char) : Option (List TokenTree × List Char) :=
  let (text, rest) := splitLine cs
  documented? inner (if rest.isEmpty then text else dropLastIf '\r' text) rest

/-- Read a documentation comment. -/
def lexDocumentation : Lexer (List TokenTree)
  | '/' :: '/' :: '!' :: cs => documentedLine? true cs
  | '/' :: '/' :: '/' :: cs => documentedLine? false cs
  | '/' :: '*' :: c :: cs =>
    if c == '!' || c == '*' then
      (skipBlockComment 1 cs).bind fun rest =>
        documented? (c == '!') (cs.take (cs.length - rest.length - 2)) rest
    else none
  | _ => none

/-- The kind of brackets that a character opens. -/
def openedBy? : Char → Option Delimiter
  | '(' => some .parenthesis
  | '[' => some .bracket
  | '\x7b' => some .brace
  | _ => none

/-- Read trees up to the end of the text or to a closing bracket, which is left. -/
def lexTrees : (fuel : Nat) → Lexer (List TokenTree)
  | 0, _ => none
  | fuel + 1, cs =>
    match skipTrivia (cs.length + 1) cs with
    | [] => some ([], [])
    | c :: cs =>
      if c == ')' || c == ']' || c == '\x7d' then some ([], c :: cs)
      else
        match openedBy? c with
        | some delimiter =>
          match lexTrees fuel cs with
          | some (inner, closing :: rest) =>
            if closing == delimiter.closing then
              (lexTrees fuel rest).map fun (trees, rest) => (.group delimiter inner :: trees, rest)
            else none
          | _ => none
        | none =>
          match lexDocumentation (c :: cs) with
          | some (documented, rest) =>
            (lexTrees fuel rest).map fun (trees, rest) => (documented ++ trees, rest)
          | none =>
            match lexLeaf (c :: cs) with
            | some (token, rest) =>
              (lexTrees fuel rest).map fun (trees, rest) => (token :: trees, rest)
            | none => none

/-- The text without the mark of the byte order that it may begin with. -/
def withoutByteOrderMark : List Char → List Char
  | '\ufeff' :: cs => cs
  | cs => cs

/-- The tokens of a text, if it is made of tokens and its brackets are balanced. -/
def lex? (text : List Char) : Option (List TokenTree) :=
  let cs := withoutByteOrderMark text
  match lexTrees (cs.length + 1) cs with
  | some (trees, []) => some trees
  | _ => none

end Peg.Host
