/-
Peg/Host/Pattern.lean

Recognizers of patterns.

A pattern stands wherever host code binds names: in `let`, in the arms of a
match, in the arguments of closures and functions.  Several patterns with bars
between them are one pattern where nothing else could be meant by a bar.
-/
import Peg.Host.Type

namespace Peg.Host

open Recognizer

/-! ### Ranges -/

/-- Read the dots of a range in a pattern. -/
def rangeDots : Recognizer Tokens := do
  if ← atMark "..=" then mark "..="
  else if ← atMark "..." then mark "..."
  else mark ".."

/-- Whether a path is next. -/
def atPath : Recognizer Bool := do
  return (← atName) || (← atMark "::") || (← atMark "<")
    || (← atOneOf ["self", "Self", "super", "crate"])

/-- Whether nothing that a range in a pattern could end with is next. -/
def atRangeEnd : Recognizer Bool := do
  return (← atEnd) || (← atMark "|") || (← atMark "=") || ((← atMark ":") && !(← atMark "::"))
    || (← atMark ",") || (← atMark ";") || (← atWord "if")

/-- Read a bound of a range in a pattern. -/
def rangeBound (recur : Recur) : Recognizer Tokens := do
  if (← atLiteral) || (← atMark "-") then inOrder [mark? "-", literal]
  else if ← atPath then path recur (bounds recur true) true
  else inOrder [word "const", recur.tokens .block]

/-- Read the dots of a range in a pattern and its end, which only two dots may be without. -/
def rangeFromDots (recur : Recur) : Recognizer Tokens := do
  let isOpen := (← atMark "..") && !(← atMark "..=") && !(← atMark "...")
  let dots ← rangeDots
  if ← atRangeEnd then
    if isOpen then return dots else failure
  else return dots ++ (← rangeBound recur)

/-! ### Parts -/

/-- Read patterns with commas between them. -/
def patternList (recur : Recur) : Recognizer Tokens :=
  commaList (recur.tokens (.pattern true))

/-- Read a name to be bound, with the pattern it has to match. -/
def bindingPattern (recur : Recur) : Recognizer Tokens :=
  inOrder [word? "ref", word? "mut",
    (do if ← atWord "self" then token else name),
    provided (atMark "@") (inOrder [mark "@", recur.tokens (.pattern false)])]

/-- Read the pattern of a field of a structure. -/
def fieldPattern (recur : Recur) : Recognizer Tokens := do
  let attributes ← outerAttributes
  if ← atMark ".." then return attributes ++ (← mark "..")
  else if ← atWord "box" then
    return attributes ++ (← verbatim (inOrder [token, word? "ref", word? "mut", name]))
  else if ← atOneOf ["ref", "mut"] then
    return attributes ++ (← inOrder [word? "ref", word? "mut", name])
  else
    let isNamed ← atName
    let member ← if isNamed then name else literal
    if !isNamed || (← atMark ":") then
      return attributes ++ member ++ (← mark ":") ++ (← recur.tokens (.pattern true))
    else return attributes ++ member

/-- Read a pattern that begins with a path. -/
def pathPattern (recur : Recur) : Recognizer Tokens := do
  let found ← path recur (bounds recur true) true
  if (← atMark "!") && !(← atMark "!=") && isPlainPath found then
    return found ++ (← mark "!") ++ (← rawGroup)
  else if ← atGroup .brace then return found ++ (← group .brace (commaList (fieldPattern recur)))
  else if ← atGroup .parenthesis then return found ++ (← group .parenthesis (patternList recur))
  else if ← atMark ".." then return found ++ (← rangeFromDots recur)
  else return found

/-- Whether a pattern that begins with a path is next; a name alone is bound. -/
def atPathPattern : Recognizer Bool := do
  let isLonger := (← atMarkAfter 1 "::") || (← atMarkAfter 1 "!") || (← atGroupAfter 1 .brace)
    || (← atGroupAfter 1 .parenthesis) || (← atMarkAfter 1 "..")
  return ((← atName) && isLonger) || ((← atWord "self") && (← atMarkAfter 1 "::"))
    || (← atMark "::") || (← atMark "<") || (← atOneOf ["Self", "super", "crate"])

/-! ### Patterns -/

/-- Read one pattern. -/
def singlePattern (recur : Recur) : Recognizer Tokens := do
  if ← atPathPattern then pathPattern recur
  else if ← atWord "_" then token
  else if ← atWord "box" then verbatim (inOrder [token, recur.tokens (.pattern false)])
  else if (← atMark "-") || (← atLiteral) || (← atWord "const") then
    let start ← rangeBound recur
    return start ++ (← provided (atMark "..") (rangeFromDots recur))
  else if (← atOneOf ["ref", "mut", "self"]) || (← atName) then bindingPattern recur
  else if ← atMark "&" then
    inOrder [mark "&", word? "mut", recur.tokens (.pattern false)]
  else if ← atGroup .parenthesis then group .parenthesis (patternList recur)
  else if ← atGroup .bracket then group .bracket (patternList recur)
  else if (← atMark "..") && !(← atMark "...") then rangeFromDots recur
  else failure

/-- Whether another alternative of a pattern is next. -/
def atAlternative : Recognizer Bool := do
  return (← atMark "|") && !(← atMark "||") && !(← atMark "|=")

/-- Read a pattern, which may have alternatives. -/
def pattern (recur : Recur) (alternatives : Bool) : Recognizer Tokens := do
  if alternatives then
    inOrder [mark? "|", singlePattern recur,
      whileTrue atAlternative (inOrder [mark "|", singlePattern recur])]
  else singlePattern recur

end Peg.Host
