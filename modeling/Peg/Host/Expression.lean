/-
Peg/Host/Expression.lean

Recognizers of expressions.

Binary operators are read by precedence.  After an operand, `operators` takes
the operators that bind at least as tightly as a given precedence; the right
operand of each takes those that bind more tightly than the operator itself.
Only assignment associates to the right.  A range is no left operand, and
comparisons have none that is a comparison.

In the head of a block, as after `if`, a brace opens the block and no
structure: that is what `allowStruct` is for.
-/
import Peg.Host.Pattern
import Peg.Text.Basic

namespace Peg.Host

open Recognizer

/-! ### Operators -/

/-- The binary operators, each before those it begins with. -/
def binaryOperators : List (String × Precedence) := [
  ("+=", .assignment), ("-=", .assignment), ("*=", .assignment), ("/=", .assignment),
  ("%=", .assignment), ("^=", .assignment), ("&=", .assignment), ("|=", .assignment),
  ("<<=", .assignment), (">>=", .assignment), ("&&", .conjunction), ("||", .disjunction),
  ("<<", .shift), (">>", .shift), ("==", .comparison), ("<=", .comparison), ("!=", .comparison),
  (">=", .comparison), ("+", .sum), ("-", .sum), ("*", .product), ("/", .product),
  ("%", .product), ("^", .bitXor), ("&", .bitAnd), ("|", .bitOr), ("<", .comparison),
  (">", .comparison)]

/-- The binary operator that is next. -/
def binaryOperator? : Recognizer (Option (String × Precedence)) := do
  let tokens ← get
  return binaryOperators.find? fun (symbols, _) => marksAt symbols.toList tokens

/-- Whether the sign of an assignment is next. -/
def atAssignment : Recognizer Bool := do
  return (← atMark "=") && !(← atMark "==") && !(← atMark "=>")

/-- The precedence of what is next, whether it is an operator or not. -/
def nextPrecedence : Recognizer Precedence := do
  match ← binaryOperator? with
  | some (_, precedence) => return precedence
  | none =>
    if (← atMark "=") && !(← atMark "=>") then return .assignment
    else if ← atMark ".." then return .range
    else if ← atWord "as" then return .cast
    else return .lowest

/-- Marks that a range without an end may be followed by. -/
def marksAfterRange : List String :=
  [",", ";", "?", "=>", "=", "+", "/", "%", "^", ">", "<=", "!=", "-=", "*=", "&=", "|=", "<<="]

/-- Whether a range ends without an end. -/
def atOpenRangeEnd (allowStruct : Bool) : Recognizer Bool := do
  let tokens ← get
  return tokens.isEmpty || (marksAfterRange.any fun symbols => marksAt symbols.toList tokens)
    || ((← atMark ".") && !(← atMark "..")) || (!allowStruct && (← atGroup .brace))
    || (← atWord "as")

/-- Read the dots of a range, and its end. -/
def rangeRest (recur : Recur) (allowStruct : Bool) : Recognizer Tokens := do
  if ← atMark "..=" then
    inOrder [mark "..=", recur.tokens (.operand allowStruct .range)]
  else if ← atMark "..." then failure
  else
    let dots ← mark ".."
    if ← atOpenRangeEnd allowStruct then return dots
    else return dots ++ (← recur.tokens (.operand allowStruct .range))

/-- Whether something is next that would have to belong to the type of a cast. -/
def atCastTrailer : Recognizer Bool := do
  return ((← atMark ".") && !(← atMark "..")) || (← atMark "?") || (← atGroup .bracket)
    || (← atGroup .parenthesis)

/-- Read the operators of at least a precedence that follow an operand. -/
def operators (recur : Recur) (allowStruct : Bool) (least : Precedence) (operand : Found) :
    Recognizer Found := do
  let continued (more : Tokens) (shape : Shape) : Recognizer Found :=
    recur (.operators allowStruct least (operand.tokens ++ more) shape)
  if operand.shape == .range then return operand
  match ← binaryOperator? with
  | some (symbols, precedence) =>
    if precedence.looserThan least then return operand
    else if precedence == .comparison && operand.shape == .comparison then failure
    else
      let more ← inOrder [mark symbols, recur.tokens (.operand allowStruct precedence)]
      continued more (if precedence == .comparison then .comparison else .other)
  | none =>
    if !Precedence.assignment.looserThan least && (← atAssignment) then
      let more ← inOrder [mark "=", recur.tokens (.operand allowStruct .assignment)]
      continued more .other
    else if !Precedence.range.looserThan least && (← atMark "..") then
      continued (← rangeRest recur allowStruct) .range
    else if ← atWord "as" then
      let more ← inOrder [word "as", recur.tokens (.type false)]
      if ← atCastTrailer then failure else continued more .other
    else return operand

/-- Read more of the right operand of an operator: what binds more tightly. -/
def moreOperand (recur : Recur) (allowStruct : Bool) (precedence : Precedence) (operand : Found) :
    Recognizer Found := do
  let next ← nextPrecedence
  if precedence.looserThan next || (next == precedence && precedence == .assignment) then
    let before := (← get).length
    let found ← recur (.operators allowStruct next operand.tokens operand.shape)
    if (← get).length == before then return found
    else recur (.moreOperand allowStruct precedence found.tokens found.shape)
  else return operand

/-! ### Members, calls and indices -/

/-- The index of a field, as it is printed. -/
def fieldIndex? (digits : List Char) : Option TokenTree :=
  let value? := match digits with
    | '0' :: 'x' :: digits => Text.numberOf? 16 (digits.filter (· != '_'))
    | '0' :: 'o' :: digits => Text.numberOf? 8 (digits.filter (· != '_'))
    | '0' :: 'b' :: digits => Text.numberOf? 2 (digits.filter (· != '_'))
    | digits => Text.numberOf? 10 (digits.filter (· != '_'))
  match value? with
  | some value => if value < UInt32.size then some (.literal (toString value)) else none
  | none => none

/-- Read the index of a field. -/
def fieldIndex : Recognizer Tokens := do
  match (← get).head? with
  | some (.literal text) =>
    match fieldIndex? text.toList with
    | some index =>
      modify (·.drop 1)
      return [index]
    | none => failure
  | _ => failure

/-- Read a number with a dot where indices of fields are meant: `1.2` is two of them.  The last
dot may have no index after it. -/
def fieldIndices (text : List Char) : Option Tokens :=
  match Text.splitOn '.' text with
  | [whole, []] => (fieldIndex? whole).map fun index => [index, .mark '.' false]
  | [whole, fraction] => do
    return [← fieldIndex? whole, .mark '.' false, ← fieldIndex? fraction]
  | _ => none

/-- Read the arguments of a call. -/
def callArguments (recur : Recur) : Recognizer Tokens :=
  group .parenthesis (commaList (recur.tokens (.expression true)))

/-- Read the member after a dot: the field, the method call, or the keyword that awaits. -/
def member (recur : Recur) : Recognizer Tokens := do
  if ← atWord "await" then token
  else if ← atName then
    let name ← token
    if ← atMark "::" then
      return name ++ (← mark "::") ++ (← angleArguments recur (bounds recur true))
        ++ (← callArguments recur)
    else return name ++ (← provided (atGroup .parenthesis) (callArguments recur))
  else fieldIndex

/-- Read a dot and what belongs to it. -/
def memberAccess (recur : Recur) : Recognizer Tokens := do
  let dot ← mark "."
  match (← get).head? with
  | some (.literal text) =>
    if text.toList.contains '.' then
      modify (·.drop 1)
      match fieldIndices text.toList with
      | some indices =>
        if text.toList.getLast? == some '.' then return dot ++ indices ++ (← member recur)
        else return dot ++ indices
      | none => failure
    else return dot ++ (← fieldIndex)
  | _ => return dot ++ (← member recur)

/-- Read one of the things that may come directly after an operand, if there is one. -/
def trailer? (recur : Recur) (afterRange : Bool) : Recognizer (Option Tokens) := do
  if ← atGroup .parenthesis then return some (← callArguments recur)
  else if (← atMark ".") && !(← atMark "..") && !afterRange then
    return some (← memberAccess recur)
  else if ← atGroup .bracket then
    return some (← group .bracket (recur.tokens (.expression true)))
  else if (← atMark "?") && !afterRange then return some (← mark "?")
  else return none

/-- Read what comes directly after an operand, at most a number of things. -/
def trailersUpTo (recur : Recur) : (fuel : Nat) → Found → Recognizer Found
  | 0, operand => return operand
  | fuel + 1, operand => do
    match ← trailer? recur (operand.shape == .range) with
    | none => return operand
    | some tokens => trailersUpTo recur fuel ⟨operand.tokens ++ tokens, .other⟩

/-- Read what comes directly after an operand. -/
def trailers (recur : Recur) (operand : Found) : Recognizer Found := do
  trailersUpTo recur ((← get).length + 1) operand

/-! ### Paths, structures and macros -/

/-- Read the field of a structure with its value; the name of a variable may stand for both. -/
def fieldValue (recur : Recur) : Recognizer Tokens := do
  let attributes ← outerAttributes
  let isNamed ← atName
  let field ← if isNamed then name else fieldIndex
  if !isNamed || (← atMark ":") then
    return attributes ++ field ++ (← mark ":") ++ (← recur.tokens (.expression true))
  else return attributes ++ field

/-- Read the fields of a structure, and the structure that the other fields are taken from. -/
def fieldValues (recur : Recur) : Recognizer Tokens := do
  let fields ← commaUntil (do return (← atEnd) || (← atMark "..")) (fieldValue recur)
  let rest ← provided (atMark "..") (inOrder [mark "..",
    provided (do return !(← atEnd)) (recur.tokens (.expression true))])
  return fields ++ rest

/-- Read an expression that begins with a path. -/
def pathExpression (recur : Recur) (allowStruct : Bool) : Recognizer Tokens := do
  let found ← path recur (bounds recur true) true
  if (← atMark "!") && !(← atMark "!=") && isPlainPath found then
    return found ++ (← mark "!") ++ (← rawGroup)
  else if allowStruct && (← atGroup .brace) then
    return found ++ (← group .brace (fieldValues recur))
  else return found

/-! ### Closures and jumps -/

/-- Whether lifetimes are introduced next. -/
def atIntroduction : Recognizer Bool := do
  return (← atWord "for") && (← atMarkAfter 1 "<")
    && ((← atMarkAfter 2 ">") || (← atLifetimeAfter 2))

/-- Whether a closure is next. -/
def atClosure : Recognizer Bool := do
  return (← atMark "|") || (← atWord "move") || (← atIntroduction)
    || ((← atWord "const") && !(← atGroupAfter 1 .brace)) || (← atWord "static")
    || ((← atWord "async") && ((← atMarkAfter 1 "|") || (← atWordAfter 1 "move")))

/-- Read an argument of a closure. -/
def closureArgument (recur : Recur) : Recognizer Tokens :=
  inOrder [outerAttributes, recur.tokens (.pattern false),
    provided (atMark ":") (inOrder [mark ":", recur.tokens (.type true)])]

/-- Read a closure. -/
def closure (recur : Recur) (allowStruct : Bool) : Recognizer Tokens :=
  inOrder [introducedLifetimes, word? "const", word? "static", word? "async", word? "move",
    mark "|", commaUntil (atMark "|") (closureArgument recur), mark "|",
    (do
      if ← atMark "->" then
        inOrder [mark "->", recur.tokens (.type true), recur.tokens .block]
      else recur.tokens (.expression allowStruct))]

/-- Whether an expression may begin here. -/
def atExpression : Recognizer Bool := do
  let isWordNext := match (← get).head? with
    | some (.word text) => text != "as"
    | some (.literal _) | some (.group _ _) => true
    | _ => false
  return isWordNext
    || ((← atMark "!") && !(← atMark "!="))
    || ((← atMark "-") && !(← atMark "-=") && !(← atMark "->"))
    || ((← atMark "*") && !(← atMark "*="))
    || ((← atMark "|") && !(← atMark "|="))
    || ((← atMark "&") && !(← atMark "&="))
    || (← atMark "..")
    || ((← atMark "<") && !(← atMark "<=") && !(← atMark "<<="))
    || (← atMark "::") || (← atLifetime) || (← atMark "#")

/-- Read a jump out of a loop.  A label in front of a value must not look like that of a loop. -/
def breakExpression (recur : Recur) (allowStruct : Bool) : Recognizer Tokens := do
  if (← atLifetimeAfter 1) && (← atMarkAfter 3 ":") then failure
  else
    inOrder [word "break", lifetime?,
      provided (do return (← atExpression) && (allowStruct || !(← atGroup .brace)))
        (recur.tokens (.expression allowStruct))]

/-! ### Blocks -/

/-- Read a block, given what it begins with. -/
def blockAfter (recur : Recur) (beginning : List (Recognizer Tokens)) : Recognizer Tokens :=
  inOrder (beginning ++ [recur.tokens .block])

/-- Read a condition or whatever else comes before a block. -/
def blockHead (recur : Recur) : Recognizer Tokens :=
  recur.tokens (.expression false)

/-- Read a conditional, at most a number of branches. -/
def conditional (recur : Recur) : (fuel : Nat) → Recognizer Tokens
  | 0 => failure
  | fuel + 1 => do
    let branch ← blockAfter recur [word "if", blockHead recur]
    if ← atWord "else" then
      let other ← token
      if ← atWord "if" then return branch ++ other ++ (← conditional recur fuel)
      else return branch ++ other ++ (← recur.tokens .block)
    else return branch

/-- Read an arm of a match. -/
def arm (recur : Recur) : Recognizer Tokens := do
  let head ← inOrder [outerAttributes, recur.tokens (.pattern true),
    provided (atWord "if") (inOrder [word "if", recur.tokens (.expression true)]), mark "=>"]
  let body ← recur .early
  let comma ← (do
    if body.shape != .blockLike && !(← atEnd) then mark "," else mark? ",")
  return head ++ body.tokens ++ comma

/-- Read a match. -/
def matchExpression (recur : Recur) : Recognizer Tokens :=
  inOrder [word "match", blockHead recur,
    group .brace (inOrder [innerAttributes, whileTrue (do return !(← atEnd)) (arm recur)])]

/-- Read a loop or a block that may have a label, if one is next. -/
def labelable? (recur : Recur) : Recognizer (Option Tokens) := do
  if ← atWord "while" then return some (← blockAfter recur [token, blockHead recur])
  else if (← atWord "for") && !(← atIntroduction) then
    return some (← blockAfter recur
      [token, recur.tokens (.pattern true), word "in", blockHead recur])
  else if ← atWord "loop" then return some (← blockAfter recur [token])
  else if ← atGroup .brace then return some (← recur.tokens .block)
  else return none

/-- Read an expression that is like a block, if one is next. -/
def blockLike? (recur : Recur) : Recognizer (Option Tokens) := do
  if ← atWord "if" then return some (← conditional recur ((← get).length + 1))
  else if ← atWord "match" then return some (← matchExpression recur)
  else if (← atOneOf ["try", "const"]) && (← atGroupAfter 1 .brace) then
    return some (← blockAfter recur [token])
  else if ← atWord "unsafe" then return some (← blockAfter recur [token])
  else labelable? recur

/-! ### Operands -/

/-- Read the inside of brackets: the elements of an array, or one and how often it is there. -/
def arrayElements (recur : Recur) : Recognizer Tokens := do
  if ← atEnd then return []
  let first ← recur.tokens (.expression true)
  if ← atMark ";" then
    return first ++ (← mark ";") ++ (← recur.tokens (.expression true))
  else if ← atEnd then return first
  else return first ++ (← mark ",") ++ (← commaList (recur.tokens (.expression true)))

/-- Read a condition that a pattern matches. -/
def letCondition (recur : Recur) (allowStruct : Bool) : Recognizer Tokens := do
  let head ← inOrder [word "let", recur.tokens (.pattern true), mark "="]
  let operand ← recur (.unary allowStruct)
  let found ← recur (.operators allowStruct .comparison operand.tokens operand.shape)
  return head ++ found.tokens

/-- Read an operand without anything after it. -/
def atom (recur : Recur) (allowStruct : Bool) : Recognizer Found := do
  let other (reader : Recognizer Tokens) : Recognizer Found := do return ⟨← reader, .other⟩
  if ← atLiteral then other literal
  else if (← atWord "async") && ((← atGroupAfter 1 .brace)
      || ((← atWordAfter 1 "move") && (← atGroupAfter 2 .brace))) then
    other (blockAfter recur [token, word? "move"])
  else if ← atClosure then other (closure recur allowStruct)
  else if (← atPath) || ((← atWord "try") && ((← atMarkAfter 1 "!") || (← atMarkAfter 1 "::"))) then
    other (pathExpression recur allowStruct)
  else if ← atGroup .parenthesis then other (callArguments recur)
  else if ← atGroup .bracket then other (group .bracket (arrayElements recur))
  else if ← atWord "break" then other (breakExpression recur allowStruct)
  else if ← atWord "continue" then other (inOrder [token, lifetime?])
  else if ← atOneOf ["return", "yield"] then
    other (inOrder [token, provided atExpression (recur.tokens (.expression allowStruct))])
  else if ← atWord "become" then other (inOrder [token, recur.tokens (.expression true)])
  else if ← atWord "let" then other (letCondition recur allowStruct)
  else if ← atMark ".." then return ⟨← rangeRest recur allowStruct, .range⟩
  else if ← atWord "_" then other token
  else if (← atLifetime) && (← atMarkAfter 2 ":") then
    let label ← inOrder [lifetime, mark ":"]
    match ← labelable? recur with
    | some tokens => return ⟨label ++ tokens, .blockLike⟩
    | none => failure
  else
    match ← blockLike? recur with
    | some tokens => return ⟨tokens, .blockLike⟩
    | none => failure

/-- Read an operand with the operators in front of it and what comes directly after it. -/
def unary (recur : Recur) (allowStruct : Bool) : Recognizer Found := do
  let attributes ← outerAttributes
  let applied (reader : Recognizer Tokens) : Recognizer Found := do
    return ⟨attributes ++ (← reader) ++ (← recur.tokens (.unary allowStruct)), .other⟩
  if ← atMark "&" then
    applied (inOrder [mark "&",
      (do
        if (← atWord "raw") && ((← atWordAfter 1 "mut") || (← atWordAfter 1 "const")) then
          inOrder [token, token]
        else word? "mut")])
  else if ← atMark "*" then applied (mark "*")
  else if ← atMark "!" then applied (mark "!")
  else if ← atMark "-" then applied (mark "-")
  else
    let found ← trailers recur (← atom recur allowStruct)
    if !attributes.isEmpty && found.shape == .range then failure
    else return ⟨attributes ++ found.tokens, found.shape⟩

/-- Read an expression. -/
def expression (recur : Recur) (allowStruct : Bool) : Recognizer Found := do
  let operand ← recur (.unary allowStruct)
  recur (.operators allowStruct .lowest operand.tokens operand.shape)

/-- Read an expression that ends with the block it is like: only a dot or a question mark
continues it. -/
def earlyExpression (recur : Recur) : Recognizer Found := do
  let attributes ← outerAttributes
  match ← blockLike? recur with
  | some tokens =>
    if ((← atMark ".") && !(← atMark "..")) || (← atMark "?") then
      let operand ← trailers recur ⟨attributes ++ tokens, .other⟩
      recur (.operators true .lowest operand.tokens operand.shape)
    else return ⟨attributes ++ tokens, .blockLike⟩
  | none =>
    let operand ← recur (.unary true)
    recur (.operators true .lowest (attributes ++ operand.tokens) operand.shape)

end Peg.Host
