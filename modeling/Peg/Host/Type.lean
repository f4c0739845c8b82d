/-
Peg/Host/Type.lean

Recognizers of paths, types, bounds and generic parameters.

A path has its type arguments directly after a name in a type, and after two
more colons in an expression.  Where a plus may follow, as in a cast, a type
is read without the sums of bounds it could be continued with.
-/
import Peg.Host.Recognizer

namespace Peg.Host

open Recognizer

/-! ### Attributes -/

/-- Read the attributes before something. -/
def outerAttributes : Recognizer Tokens :=
  whileTrue (do return (← atMark "#") && (← atGroupAfter 1 .bracket))
    (inOrder [mark "#", token])

/-- Read the attributes at the beginning of a block or a module. -/
def innerAttributes : Recognizer Tokens :=
  whileTrue
    (do return (← atMark "#") && (← atMarkAfter 1 "!") && (← atGroupAfter 2 .bracket))
    (inOrder [mark "#", mark "!", token])

/-! ### Paths -/

/-- Whether a segment of a path is next. -/
def atSegment : Recognizer Bool := do
  return (← atName) || (← atOneOf ["super", "self", "Self", "crate", "try"])

/-- Read an argument of a path: a lifetime, a constant, a type, or an associated type with its
value or its bounds. -/
def genericArgument (recur : Recur) (bounds : Recognizer Tokens) : Recognizer Tokens := do
  let constant := do
    if ← atGroup .brace then recur.tokens .block
    else inOrder [mark? "-", literal]
  if (← atLifetime) && !(← atMarkAfter 2 "+") then lifetime
  else if (← atLiteral) || (← atGroup .brace) || (← atMark "-") then constant
  else
    let type ← recur.tokens (.type true)
    if (← atMark "=") && !(← atMark "==") then
      let equals ← mark "="
      let value ← (do
        if (← atLiteral) || (← atGroup .brace) then constant else recur.tokens (.type true))
      return type ++ equals ++ value
    else if (← atMark ":") && !(← atMark "::") then return type ++ (← mark ":") ++ (← bounds)
    else return type

/-- Read things in angle brackets.  The lifetimes among them are printed first. -/
def angleList (reader : Recognizer Tokens) (isLifetimePart : Tokens → Bool) :
    Recognizer Tokens := do
  let opening ← mark "<"
  let parts ← commaParts (atMark ">") reader
  let (lifetimes, others) := parts.partition fun part => isLifetimePart part.1
  return opening ++ joinParts (lifetimes ++ others) ++ (← mark ">")

/-- Read the arguments of a path in angle brackets. -/
def angleArguments (recur : Recur) (bounds : Recognizer Tokens) : Recognizer Tokens :=
  angleList (genericArgument recur bounds) fun part => isLifetime part && part.length == 2

/-- Read the type after an arrow, if there is one. -/
def returnType (recur : Recur) (allowPlus : Bool) : Recognizer Tokens :=
  provided (atMark "->") (inOrder [mark "->", recur.tokens (.type allowPlus)])

/-- Read a segment of a path, with its arguments. -/
def segment (recur : Recur) (bounds : Recognizer Tokens) (inExpression : Bool) :
    Recognizer Tokens := do
  if ← atOneOf ["super", "self", "crate", "try"] then token
  else if ← atSegment then
    let name ← token
    if !inExpression && (← atMark "<") && !(← atMark "<=") then
      return name ++ (← angleArguments recur bounds)
    else if (← atMark "::") && (← atMarkAfter 2 "<") then
      return name ++ (← mark "::") ++ (← angleArguments recur bounds)
    else if !inExpression && (← atGroup .parenthesis) then
      let inputs ← group .parenthesis (commaList (recur.tokens (.type true)))
      return name ++ inputs ++ (← returnType recur false)
    else return name
  else failure

/-- Read the segments of a path. -/
def segments (recur : Recur) (bounds : Recognizer Tokens) (inExpression : Bool) :
    Recognizer Tokens := do
  let first ← segment recur bounds inExpression
  let others ← whileTrue
    (do return (← atMark "::") && !(← atGroupAfter 2 .parenthesis))
    (inOrder [mark "::", segment recur bounds inExpression])
  return first ++ others

/-- Read a path. -/
def simplePath (recur : Recur) (bounds : Recognizer Tokens) (inExpression : Bool) :
    Recognizer Tokens :=
  inOrder [mark? "::", segments recur bounds inExpression]

/-- Read a path that may begin with a type in angle brackets. -/
def path (recur : Recur) (bounds : Recognizer Tokens) (inExpression : Bool) :
    Recognizer Tokens := do
  if ← atMark "<" then
    inOrder [mark "<", recur.tokens (.type true),
      provided (atWord "as") (inOrder [word "as", simplePath recur bounds false]),
      mark ">", mark "::", segments recur bounds inExpression]
  else simplePath recur bounds inExpression

/-- Whether tokens are a path without arguments, as the name of a macro has to be. -/
def isPlainPath (tokens : Tokens) : Bool :=
  tokens.all fun
    | .word _ => true
    | .mark symbol _ => symbol == ':'
    | _ => false

/-! ### Bounds -/

/-- Read lifetimes that are introduced for what follows. -/
def introducedLifetimes : Recognizer Tokens := do
  if ← atWord "for" then
    let introduction ← inOrder [word "for", mark "<"]
    let parameters ← commaUntil (atMark ">") (inOrder [outerAttributes, lifetime,
      provided (atMark ":") (inOrder [mark ":",
        whileTrue atLifetime (inOrder [lifetime, mark? "+"])])])
    return introduction ++ parameters ++ (← mark ">")
  else return []

/-- Read the trait of a bound. -/
def traitBound (recur : Recur) (bounds : Recognizer Tokens) : Recognizer Tokens := do
  inOrder [provided (atMark "~") (inOrder [mark "~", word "const"]), word? "async", mark? "?",
    introducedLifetimes, simplePath recur bounds false]

/-- Read the parameters that a type without a name captures. -/
def capture : Recognizer Tokens :=
  inOrder [word "use", angleList
    (do if ← atLifetime then lifetime else if ← atWord "Self" then token else name) isLifetime]

/-- Read a bound. -/
def bound (recur : Recur) (bounds : Recognizer Tokens) : Recognizer Tokens := do
  if ← atLifetime then lifetime
  else if ← atWord "use" then capture
  else if ← atGroup .parenthesis then group .parenthesis (traitBound recur bounds)
  else traitBound recur bounds

/-- Whether a bound is next; only a type without a name captures parameters. -/
def atBound (allowCapture : Bool) : Recognizer Bool := do
  return (← atSegment) || (← atMark "::") || (← atMark "?") || (← atLifetime)
    || (← atGroup .parenthesis) || (← atMark "~") || (← atOneOf ["for", "async"])
    || (allowCapture && (← atWord "use"))

/-- Read bounds with plus signs between them.  Bounds nest through the arguments of paths, at most
as deep as there are tokens. -/
def boundsUpTo (recur : Recur) (allowPlus allowCapture : Bool) : (fuel : Nat) → Recognizer Tokens
  | 0 => failure
  | fuel + 1 => do
    let nested := boundsUpTo recur true false fuel
    if !(← atBound allowCapture) then return []
    let first ← bound recur nested
    if allowPlus && (← atMark "+") then
      let plus ← mark "+"
      return first ++ plus ++ (← boundsUpTo recur allowPlus allowCapture fuel)
    else return first

/-- Read bounds, among which there may be captured parameters if that is allowed. -/
def boundsOf (recur : Recur) (allowPlus allowCapture : Bool) : Recognizer Tokens := do
  boundsUpTo recur allowPlus allowCapture (sizeOfAll (← get) + 1)

/-- Read bounds. -/
def bounds (recur : Recur) (allowPlus : Bool) : Recognizer Tokens :=
  boundsOf recur allowPlus false

/-- Whether bounds have a trait among them, and not only lifetimes and captured parameters. -/
def hasTrait : (captured : Bool) → Tokens → Bool
  | _, [] => false
  | true, .mark '>' _ :: tokens => hasTrait false tokens
  | true, _ :: tokens => hasTrait true tokens
  | false, .word "use" :: tokens => hasTrait true tokens
  | false, .mark '\'' _ :: _ :: tokens | false, .mark '+' _ :: tokens => hasTrait false tokens
  | false, _ => true

/-- Read the bounds that a type consists of. -/
def boundsType (recur : Recur) (allowPlus allowCapture : Bool) : Recognizer Tokens := do
  let traits ← boundsOf recur allowPlus allowCapture
  if hasTrait false traits then return traits else failure

/-! ### Types -/

/-- Read an argument of a function type. -/
def bareArgument (recur : Recur) : Recognizer Tokens := do
  let attributes ← outerAttributes
  if ← atMark "..." then return attributes ++ (← mark "...")
  let named := ((← atName) || (← atWord "_")) && (← atMarkAfter 1 ":") && !(← atMarkAfter 1 "::")
  let name ← if named then inOrder [token, mark ":"] else pure []
  return attributes ++ name ++ (← recur.tokens (.type true))

/-- Read a function type. -/
def functionType (recur : Recur) : Recognizer Tokens := do
  inOrder [word? "unsafe",
    provided (atWord "extern") (inOrder [word "extern", provided atLiteral literal]),
    word "fn", group .parenthesis (commaList (bareArgument recur)), returnType recur false]

/-- Read a type in parentheses: a tuple, or one type. -/
def parenthesizedType (recur : Recur) : Recognizer Tokens := do
  if ← atEnd then return []
  if (← atLifetime) || (← atMark "?") then boundsType recur true false
  else commaList (recur.tokens (.type true))

/-- Read the type of an array or a slice, inside the brackets. -/
def bracketedType (recur : Recur) : Recognizer Tokens :=
  inOrder [recur.tokens (.type true),
    provided (atMark ";") (inOrder [mark ";", recur.tokens (.expression true)])]

/-- Read a type that begins with a path: itself, a macro, or the first of several bounds. -/
def pathType (recur : Recur) (allowPlus : Bool) : Recognizer Tokens := do
  let qualified ← atMark "<"
  let found ← path recur (bounds recur true) false
  if qualified then return found
  if (← atMark "!") && !(← atMark "!=") && isPlainPath found then
    return found ++ (← mark "!") ++ (← rawGroup)
  if allowPlus && (← atMark "+") then
    let plus ← mark "+"
    return found ++ plus ++ (← bounds recur true)
  return found

/-- Read a type. -/
def type (recur : Recur) (allowPlus : Bool) : Recognizer Tokens := do
  let introduced ← introducedLifetimes
  let rest ← (do
    if ← atGroup .parenthesis then
      let inner ← group .parenthesis (parenthesizedType recur)
      if allowPlus && (← atMark "+") then
        let plus ← mark "+"
        return inner ++ plus ++ (← bounds recur true)
      else return inner
    else if ← atOneOf ["fn", "unsafe", "extern"] then functionType recur
    else if (← atSegment) || (← atMark "::") || (← atMark "<") then pathType recur allowPlus
    else if ← atWord "dyn" then inOrder [token, boundsType recur allowPlus false]
    else if ← atWord "impl" then inOrder [token, boundsType recur allowPlus true]
    else if ← atGroup .bracket then group .bracket (bracketedType recur)
    else if ← atMark "*" then
      let star ← mark "*"
      if ← atOneOf ["const", "mut"] then
        return star ++ (← token) ++ (← recur.tokens (.type false))
      else failure
    else if ← atMark "&" then
      inOrder [mark "&", lifetime?, word? "mut", recur.tokens (.type false)]
    else if ← atMark "!" then mark "!"
    else if ← atWord "_" then token
    else if ← atLifetime then boundsType recur allowPlus false
    else failure)
  return introduced ++ rest

/-! ### Generic parameters -/

/-- Read a generic parameter. -/
def genericParameter (recur : Recur) : Recognizer Tokens := do
  let attributes ← outerAttributes
  let rest ← (do
    if ← atLifetime then
      inOrder [lifetime, provided (atMark ":") (inOrder [mark ":", bounds recur true])]
    else if ← atWord "const" then
      inOrder [word "const", name, mark ":", recur.tokens (.type true),
        provided (atMark "=") (inOrder [mark "=",
          (do if ← atGroup .brace then recur.tokens .block
              else if ← atName then name
              else inOrder [mark? "-", literal])])]
    else
      inOrder [name, provided (atMark ":") (inOrder [mark ":", bounds recur true]),
        provided (atMark "=") (inOrder [mark "=", recur.tokens (.type true)])])
  return attributes ++ rest

/-- Read generic parameters, if there are any. -/
def generics (recur : Recur) : Recognizer Tokens :=
  provided (atMark "<") (angleList (genericParameter recur) isLifetime)

/-- Read a condition on generic parameters. -/
def wherePredicate (recur : Recur) : Recognizer Tokens := do
  if (← atLifetime) && (← atMarkAfter 2 ":") then
    inOrder [lifetime, mark ":", bounds recur true]
  else
    inOrder [introducedLifetimes, recur.tokens (.type true), mark ":", bounds recur true]

/-- Read conditions on generic parameters, if there are any. -/
def whereClause (recur : Recur) : Recognizer Tokens :=
  provided (atWord "where") (inOrder [word "where",
    commaUntil
      (do return (← atEnd) || (← atGroup .brace) || (← atMark ";")
            || ((← atMark "=") && !(← atMark "==")))
      (wherePredicate recur)])

end Peg.Host
