/-
Peg/Host/Recognizer.lean

Recognizers of host code.

A recognizer reads tokens from the front of a sequence and gives them back as
they are to be printed: a mark stays joint to the next one only where the two
belong to one operator.  So `>>` is split where it closes two lists of type
arguments, and kept where it is a shift.  A recognizer that finds anything but
what it looks for fails as a whole.

Host code is recursive.  The recursion goes through `Goal`, the list of what
can be looked for: every recognizer takes the function that reads a goal as an
argument, and `Peg/Host/Code.lean` closes the loop.
-/
import Peg.Host.Token

namespace Peg.Host

/-- Readers of tokens. -/
abbrev Recognizer (α : Type) := StateT (List TokenTree) Option α

/-! ### Goals -/

/-- What an expression turned out to be, as far as what may follow depends on it. -/
inductive Shape where
  | other
  | range
  | comparison
  /-- An expression that is a statement without a semicolon. -/
  | blockLike
  deriving DecidableEq

/-- How tightly operators bind, from the loosest on. -/
inductive Precedence where
  | lowest
  | assignment
  | range
  | disjunction
  | conjunction
  | comparison
  | bitOr
  | bitXor
  | bitAnd
  | shift
  | sum
  | product
  | cast
  deriving DecidableEq

/-- Whether operators of one precedence bind more loosely than those of another one. -/
def Precedence.looserThan (precedence other : Precedence) : Bool :=
  precedence.ctorIdx < other.ctorIdx

/-- What can be looked for. -/
inductive Goal where
  /-- An expression; in the head of a block it may not end with a brace. -/
  | expression (allowStruct : Bool)
  | unary (allowStruct : Bool)
  /-- The operators of at least a precedence that follow an operand. -/
  | operators (allowStruct : Bool) (least : Precedence) (operand : Tokens) (shape : Shape)
  /-- The right operand of an operator of a precedence. -/
  | operand (allowStruct : Bool) (precedence : Precedence)
  /-- More of a right operand. -/
  | moreOperand (allowStruct : Bool) (precedence : Precedence) (operand : Tokens) (shape : Shape)
  /-- An expression that ends early if it is like a block: a statement or the body of an arm. -/
  | early
  | block
  | type (allowPlus : Bool)
  | pattern (alternatives : Bool)
  | item
  | useTree

/-- Tokens read for a goal. -/
structure Found where
  tokens : Tokens
  shape : Shape := .other

/-- The reader of each goal. -/
abbrev Recur := Goal → Recognizer Found

/-- The tokens read for a goal. -/
def Recur.tokens (recur : Recur) (goal : Goal) : Recognizer Tokens := do
  return (← recur goal).tokens

namespace Recognizer

/-! ### Looking ahead -/

/-- Whether tokens begin with the marks of an operator; the last one may be joint to more. -/
def marksAt : List Char → List TokenTree → Bool
  | [], _ => true
  | [symbol], .mark symbol' _ :: _ => symbol == symbol'
  | symbol :: symbols, .mark symbol' joint :: tokens =>
    symbol == symbol' && joint && marksAt symbols tokens
  | _, _ => false

/-- Whether the next tokens are the marks of an operator. -/
def atMark (symbols : String) : Recognizer Bool := do
  return marksAt symbols.toList (← get)

/-- Whether the tokens after a number of others are the marks of an operator. -/
def atMarkAfter (count : Nat) (symbols : String) : Recognizer Bool := do
  return marksAt symbols.toList ((← get).drop count)

/-- Whether a token is a given word. -/
def isWord (text : String) : Option TokenTree → Bool
  | some (.word text') => text' == text
  | _ => false

/-- Whether the next token is a given word. -/
def atWord (text : String) : Recognizer Bool := do
  return isWord text (← get).head?

/-- Whether the token after a number of others is a given word. -/
def atWordAfter (count : Nat) (text : String) : Recognizer Bool := do
  return isWord text ((← get).drop count).head?

/-- Whether the next token is one of some words. -/
def atOneOf (texts : List String) : Recognizer Bool := do
  match (← get).head? with
  | some (.word text) => return texts.contains text
  | _ => return false

/-- Words that are no names. -/
def keywords : List String := [
  "_", "abstract", "as", "async", "await", "become", "box", "break", "const", "continue", "crate",
  "do", "dyn", "else", "enum", "extern", "false", "final", "fn", "for", "if", "impl", "in", "let",
  "loop", "macro", "match", "mod", "move", "mut", "override", "priv", "pub", "ref", "return",
  "Self", "self", "static", "struct", "super", "trait", "true", "try", "type", "typeof", "unsafe",
  "unsized", "use", "virtual", "where", "while", "yield"]

/-- Whether a token is a name. -/
def isName : Option TokenTree → Bool
  | some (.word text) => !keywords.contains text
  | _ => false

/-- Whether the next token is a name. -/
def atName : Recognizer Bool := do
  return isName (← get).head?

/-- Whether the token after a number of others is a name. -/
def atNameAfter (count : Nat) : Recognizer Bool := do
  return isName ((← get).drop count).head?

/-- Whether a token is a group with given brackets. -/
def isGroup (delimiter : Delimiter) : Option TokenTree → Bool
  | some (.group delimiter' _) => delimiter == delimiter'
  | _ => false

/-- Whether the next token is a group with given brackets. -/
def atGroup (delimiter : Delimiter) : Recognizer Bool := do
  return isGroup delimiter (← get).head?

/-- Whether the token after a number of others is a group with given brackets. -/
def atGroupAfter (count : Nat) (delimiter : Delimiter) : Recognizer Bool := do
  return isGroup delimiter ((← get).drop count).head?

/-- Whether the next token is a literal; the two truth values are literals. -/
def atLiteral : Recognizer Bool := do
  match (← get).head? with
  | some (.literal _) => return true
  | some (.word text) => return text == "true" || text == "false"
  | _ => return false

/-- Whether tokens begin with a lifetime. -/
def isLifetime : List TokenTree → Bool
  | .mark '\'' true :: .word _ :: _ => true
  | _ => false

/-- Whether the next tokens are a lifetime. -/
def atLifetime : Recognizer Bool := do
  return isLifetime (← get)

/-- Whether the tokens after a number of others are a lifetime. -/
def atLifetimeAfter (count : Nat) : Recognizer Bool := do
  return isLifetime ((← get).drop count)

/-- Whether there are no tokens left. -/
def atEnd : Recognizer Bool := do
  return (← get).isEmpty

/-! ### Reading -/

/-- Read any one token. -/
def token : Recognizer Tokens := do
  match ← get with
  | [] => failure
  | token :: tokens =>
    set tokens
    return [token]

/-- Read the marks of an operator. -/
def mark (symbols : String) : Recognizer Tokens := do
  if ← atMark symbols then
    modify (·.drop symbols.length)
    return operator symbols.toList
  else failure

/-- Read the marks of an operator, if they are next. -/
def mark? (symbols : String) : Recognizer Tokens := do
  if ← atMark symbols then mark symbols else return []

/-- Read a given word. -/
def word (text : String) : Recognizer Tokens := do
  if ← atWord text then token else failure

/-- Read a given word, if it is next. -/
def word? (text : String) : Recognizer Tokens := do
  if ← atWord text then token else return []

/-- Read a name. -/
def name : Recognizer Tokens := do
  if ← atName then token else failure

/-- Read a literal. -/
def literal : Recognizer Tokens := do
  if ← atLiteral then token else failure

/-- Read a lifetime. -/
def lifetime : Recognizer Tokens := do
  if ← atLifetime then return (← token) ++ (← token) else failure

/-- Read a lifetime, if one is next. -/
def lifetime? : Recognizer Tokens := do
  if ← atLifetime then lifetime else return []

/-- Read the tokens of a sequence to its end, and nothing less. -/
def complete {α : Type} (inner : Recognizer α) (tokens : List TokenTree) : Option α :=
  match inner.run tokens with
  | some (result, []) => some result
  | _ => none

/-- Read a group whose inside is read to its end. -/
def group (delimiter : Delimiter) (inner : Recognizer Tokens) : Recognizer Tokens := do
  match ← get with
  | .group delimiter' tokens :: rest =>
    if delimiter == delimiter' then
      match complete inner tokens with
      | some found =>
        set rest
        return [.group delimiter found]
      | none => failure
    else failure
  | _ => failure

/-- Read a group as it is. -/
def rawGroup : Recognizer Tokens := do
  match (← get).head? with
  | some (.group _ _) => token
  | _ => failure

/-- Read something and leave its tokens as they are. -/
def verbatim (reader : Recognizer Tokens) : Recognizer Tokens := do
  let tokens ← get
  let _ ← reader
  return tokens.take (tokens.length - (← get).length)

/-- Read several things one after the other. -/
def inOrder : List (Recognizer Tokens) → Recognizer Tokens
  | [] => return []
  | first :: others => do
    let tokens ← first
    return tokens ++ (← inOrder others)

/-- Read something if a condition holds. -/
def provided (condition : Recognizer Bool) (reader : Recognizer Tokens) : Recognizer Tokens := do
  if ← condition then reader else return []

/-- Read something as often as a condition holds, at most a number of times. -/
def repeatWhile : (fuel : Nat) → Recognizer Bool → Recognizer Tokens → Recognizer Tokens
  | 0, _, _ => return []
  | fuel + 1, condition, reader => do
    if ← condition then
      let tokens ← reader
      return tokens ++ (← repeatWhile fuel condition reader)
    else return []

/-- Read something as often as a condition holds. -/
def whileTrue (condition : Recognizer Bool) (reader : Recognizer Tokens) : Recognizer Tokens := do
  repeatWhile ((← get).length + 1) condition reader

/-- Read things with commas between them until an end, at most a number of them.  Each comes with
the comma after it; only the last one may be without. -/
def commaPartsUpTo (stop : Recognizer Bool) (reader : Recognizer Tokens) :
    (fuel : Nat) → Recognizer (List (Tokens × Tokens))
  | 0 => failure
  | fuel + 1 => do
    if ← stop then return []
    let tokens ← reader
    if ← stop then return [(tokens, [])]
    let comma ← mark ","
    return (tokens, comma) :: (← commaPartsUpTo stop reader fuel)

/-- Read things with commas between them until an end, each with the comma after it. -/
def commaParts (stop : Recognizer Bool) (reader : Recognizer Tokens) :
    Recognizer (List (Tokens × Tokens)) := do
  commaPartsUpTo stop reader ((← get).length + 1)

/-- Things one after the other, with a comma between any two of them. -/
def joinParts : List (Tokens × Tokens) → Tokens
  | [] => []
  | [(tokens, comma)] => tokens ++ comma
  | (tokens, []) :: parts => tokens ++ operator [','] ++ joinParts parts
  | (tokens, comma) :: parts => tokens ++ comma ++ joinParts parts

/-- Read things with commas between them until an end. -/
def commaUntil (stop : Recognizer Bool) (reader : Recognizer Tokens) : Recognizer Tokens := do
  return joinParts (← commaParts stop reader)

/-- Read things with commas between them up to the end of a group. -/
def commaList (reader : Recognizer Tokens) : Recognizer Tokens :=
  commaUntil atEnd reader

end Recognizer

end Peg.Host
