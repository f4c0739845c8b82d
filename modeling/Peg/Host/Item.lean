/-
Peg/Host/Item.lean

Recognizers of items, statements and blocks.

An item is a declaration: what a module is made of, and what may also stand
between the statements of a block.  An expression is a statement without a
semicolon if it is like a block, or if it is the last one.
-/
import Peg.Host.Expression

namespace Peg.Host

open Recognizer

/-! ### Parts of items -/

/-- Read the visibility of an item, if it is given. -/
def visibility : Recognizer Tokens := do
  if ← atWord "pub" then
    let keyword ← token
    let isRestriction : List TokenTree → Bool
      | [.word text] => ["crate", "self", "super"].contains text
      | .word "in" :: _ :: _ => true
      | _ => false
    match (← get).head? with
    | some (.group .parenthesis inner) =>
      if isRestriction inner then return keyword ++ (← token) else return keyword
    | _ => return keyword
  else return []

/-- Read an optional type and an optional value. -/
def typeAndValue (recur : Recur) : Recognizer Tokens :=
  inOrder [provided (atMark ":") (inOrder [mark ":", recur.tokens (.type true)]),
    provided (atMark "=") (inOrder [mark "=", recur.tokens (.expression true)])]

/-- Read bounds after a colon, if there are any. -/
def boundsAfterColon (recur : Recur) : Recognizer Tokens :=
  provided (atMark ":") (inOrder [mark ":", bounds recur true])

/-- Read things up to the end of a group, after the attributes of what they belong to. -/
def members (reader : Recognizer Tokens) : Recognizer Tokens :=
  group .brace (inOrder [innerAttributes, whileTrue (do return !(← atEnd)) reader])

/-- Read the call of a macro that stands for an item. -/
def macroItem (recur : Recur) : Recognizer Tokens := do
  let found ← simplePath recur (bounds recur true) true
  if isPlainPath found then
    let head ← inOrder [mark "!", provided atName name]
    let endsItself ← atGroup .brace
    let body ← rawGroup
    return found ++ head ++ body ++ (← if endsItself then pure [] else mark ";")
  else failure

/-! ### Functions -/

/-- Words that may come before `fn`. -/
def functionQualifiers : List String :=
  ["const", "async", "unsafe", "safe", "extern"]

/-- The tokens after the qualifiers of a function, if only such come first. -/
def afterQualifiers : List TokenTree → List TokenTree
  | .word text :: tokens =>
    if functionQualifiers.contains text then afterQualifiers tokens else .word text :: tokens
  | .literal _ :: tokens => afterQualifiers tokens
  | tokens => tokens

/-- Whether a function is next. -/
def atFunction : Recognizer Bool := do
  let tokens ← get
  match tokens.head? with
  | some (.word "fn") => return true
  | some (.word text) =>
    return functionQualifiers.contains text && isWord "fn" (afterQualifiers tokens).head?
  | _ => return false

/-- Whether the object of a method is next, as an argument. -/
def atReceiver : Recognizer Bool := do
  let tokens ← get
  let afterReference := match tokens with
    | .mark '&' _ :: .mark '\'' true :: .word _ :: rest => rest
    | .mark '&' _ :: rest => rest
    | rest => rest
  let afterMut := match afterReference with
    | .word "mut" :: rest => rest
    | rest => rest
  return isWord "self" afterMut.head? && !marksAt ['.', '.'] (afterMut.drop 1)
    && !marksAt [':', ':'] (afterMut.drop 1)

/-- Read an argument of a function. -/
def functionArgument (recur : Recur) : Recognizer Tokens := do
  let attributes ← outerAttributes
  if ← atReceiver then
    return attributes ++ (← inOrder [provided (atMark "&") (inOrder [mark "&", lifetime?]),
      word? "mut", word "self",
      provided (atMark ":") (inOrder [mark ":", recur.tokens (.type true)])])
  else if ← atMark "..." then return attributes ++ (← mark "...")
  else
    return attributes ++ (← inOrder [recur.tokens (.pattern false), mark ":",
      (do if ← atMark "..." then mark "..." else recur.tokens (.type true))])

/-- Read a function, with its body or without. -/
def function (recur : Recur) : Recognizer Tokens :=
  inOrder [word? "const", word? "async",
    (do if ← atOneOf ["unsafe", "safe"] then token else return []),
    provided (atWord "extern") (inOrder [token, provided atLiteral literal]),
    word "fn", name, generics recur,
    group .parenthesis (commaList (functionArgument recur)),
    returnType recur true, whereClause recur,
    (do if ← atMark ";" then mark ";" else recur.tokens .block)]

/-! ### Types -/

/-- Read a field with a name. -/
def namedField (recur : Recur) : Recognizer Tokens :=
  inOrder [outerAttributes, visibility, (do if ← atWord "_" then token else name), mark ":",
    recur.tokens (.type true)]

/-- Read a field without a name. -/
def unnamedField (recur : Recur) : Recognizer Tokens :=
  inOrder [outerAttributes, visibility, recur.tokens (.type true)]

/-- Read fields with names. -/
def namedFields (recur : Recur) : Recognizer Tokens :=
  group .brace (commaList (namedField recur))

/-- Read fields without names. -/
def unnamedFields (recur : Recur) : Recognizer Tokens :=
  group .parenthesis (commaList (unnamedField recur))

/-- Read a structure. -/
def structItem (recur : Recur) : Recognizer Tokens :=
  inOrder [word "struct", name, generics recur,
    (do
      if ← atGroup .parenthesis then
        inOrder [unnamedFields recur, whereClause recur, mark ";"]
      else
        inOrder [whereClause recur,
          (do if ← atMark ";" then mark ";" else namedFields recur)])]

/-- Read a variant of an enumeration. -/
def variant (recur : Recur) : Recognizer Tokens :=
  inOrder [outerAttributes, visibility, name,
    (do
      if ← atGroup .brace then namedFields recur
      else provided (atGroup .parenthesis) (unnamedFields recur)),
    provided (atMark "=") (inOrder [mark "=", recur.tokens (.expression true)])]

/-- Read an enumeration. -/
def enumItem (recur : Recur) : Recognizer Tokens :=
  inOrder [word "enum", name, generics recur, whereClause recur,
    group .brace (commaList (variant recur))]

/-- Read a type that is a name for another one. -/
def typeItem (recur : Recur) : Recognizer Tokens :=
  inOrder [word "type", name, generics recur, boundsAfterColon recur, whereClause recur,
    provided (atMark "=") (inOrder [mark "=", recur.tokens (.type true)]), whereClause recur,
    mark ";"]

/-! ### Constants -/

/-- Read a constant. -/
def constItem (recur : Recur) : Recognizer Tokens :=
  inOrder [word "const", (do if ← atWord "_" then token else name), generics recur,
    typeAndValue recur, whereClause recur, mark ";"]

/-- Read a static variable. -/
def staticItem (recur : Recur) : Recognizer Tokens :=
  inOrder [word "static", word? "mut", name, typeAndValue recur, mark ";"]

/-! ### Traits and implementations -/

/-- Read a member of a trait, of an implementation or of a foreign block. -/
def associatedItem (recur : Recur) : Recognizer Tokens := do
  let head ← inOrder [outerAttributes, visibility,
    provided (do return (← atWord "default") && !(← atMarkAfter 1 "!") && !(← atMarkAfter 1 "::"))
      token]
  let rest ← (do
    if ← atFunction then function recur
    else if ← atWord "const" then constItem recur
    else if ← atWord "type" then typeItem recur
    else if ← atWord "static" then staticItem recur
    else macroItem recur)
  return head ++ rest

/-- Read a trait. -/
def traitItem (recur : Recur) : Recognizer Tokens :=
  inOrder [word? "unsafe", word? "auto", word "trait", name, generics recur,
    (do
      if ← atMark "=" then inOrder [mark "=", bounds recur true, whereClause recur, mark ";"]
      else
        inOrder [boundsAfterColon recur, whereClause recur, members (associatedItem recur)])]

/-- Whether generic parameters of an implementation are next, and no type in angle brackets. -/
def atImplGenerics : Recognizer Bool := do
  let isParameter := (← atMarkAfter 1 ">") || (← atMarkAfter 1 "#") || (← atWordAfter 1 "const")
  let isFirstOfMore := (← atMarkAfter 2 ":") || (← atMarkAfter 2 ",") || (← atMarkAfter 2 ">")
    || (← atMarkAfter 2 "=")
  return (← atMark "<") && (isParameter || ((← atNameAfter 1) && isFirstOfMore)
    || isLifetime ((← get).drop 1))

/-- Read an implementation. -/
def implItem (recur : Recur) : Recognizer Tokens :=
  inOrder [word? "default", word? "unsafe", word "impl",
    provided atImplGenerics (generics recur), word? "const",
    provided (do return (← atMark "!") && !(← atGroupAfter 1 .brace)) (mark "!"),
    recur.tokens (.type true),
    provided (atWord "for") (inOrder [token, recur.tokens (.type true)]),
    whereClause recur, members (associatedItem recur)]

/-! ### Modules and imports -/

/-- Read what may be renamed. -/
def renamed (reader : Recognizer Tokens) : Recognizer Tokens :=
  inOrder [reader, provided (atWord "as") (inOrder [token,
    (do if ← atWord "_" then token else name)])]

/-- Read the tree of an import. -/
def useTree (recur : Recur) : Recognizer Tokens := do
  if (← atSegment) then
    let isPath ← atMarkAfter 1 "::"
    if isPath then inOrder [token, mark "::", recur.tokens .useTree]
    else renamed token
  else if ← atMark "*" then mark "*"
  else group .brace (commaList (inOrder [mark? "::", recur.tokens .useTree]))

/-- Read a module. -/
def modItem (recur : Recur) : Recognizer Tokens :=
  inOrder [word? "unsafe", word "mod", (do if ← atWord "try" then token else name),
    (do if ← atMark ";" then mark ";" else members (recur.tokens .item))]

/-- Read what comes from outside: another crate, or a block of foreign members. -/
def externItem (recur : Recur) : Recognizer Tokens := do
  if (← atWord "extern") && (← atWordAfter 1 "crate") then
    inOrder [token, token, renamed (do if ← atWord "self" then token else name), mark ";"]
  else
    inOrder [word? "unsafe", word "extern", provided atLiteral literal,
      members (associatedItem recur)]

/-! ### Items -/

/-- Read an item. -/
def item (recur : Recur) : Recognizer Tokens := do
  let attributes ← outerAttributes
  let visible ← visibility
  let rest ← (do
    if ← atFunction then function recur
    else if ← atWord "extern" then externItem recur
    else if ← atWord "use" then
      inOrder [token, mark? "::", recur.tokens .useTree, mark ";"]
    else if ← atWord "static" then staticItem recur
    else if ← atWord "const" then constItem recur
    else if ← atWord "mod" then modItem recur
    else if ← atWord "type" then typeItem recur
    else if ← atWord "struct" then structItem recur
    else if ← atWord "enum" then enumItem recur
    else if (← atWord "union") && (← atNameAfter 1) then
      inOrder [token, name, generics recur, whereClause recur, namedFields recur]
    else if ← atWord "trait" then traitItem recur
    else if ← atWord "impl" then implItem recur
    else if (← atWord "auto") && (← atWordAfter 1 "trait") then traitItem recur
    else if ← atWord "unsafe" then
      if (← atWordAfter 1 "trait") || (← atWordAfter 1 "auto") then traitItem recur
      else if ← atWordAfter 1 "impl" then implItem recur
      else if ← atWordAfter 1 "mod" then modItem recur
      else externItem recur
    else if (← atWord "default") && ((← atWordAfter 1 "unsafe") || (← atWordAfter 1 "impl")) then
      implItem recur
    else if ← atWord "macro" then
      inOrder [token, name, provided (atGroup .parenthesis) token,
        (do if ← atGroup .brace then token else failure)]
    else if visible.isEmpty then macroItem recur
    else failure)
  return attributes ++ visible ++ rest

/-- Read a module to its end. -/
def moduleContent (recur : Recur) : Recognizer Tokens :=
  inOrder [innerAttributes, whileTrue (do return !(← atEnd)) (recur.tokens .item)]

/-! ### Statements and blocks -/

/-- Whether an item is next, and no other statement, after the attributes. -/
def atItem : Recognizer Bool := do
  if ← atOneOf ["pub", "extern", "use", "fn", "mod", "type", "struct", "enum", "trait", "impl",
      "macro"] then return true
  else if ← atWord "crate" then return !(← atMarkAfter 1 "::")
  else if ← atWord "static" then return (← atWordAfter 1 "mut") || (← atNameAfter 1)
  else if ← atWord "const" then
    return !((← atGroupAfter 1 .brace) || (← atWordAfter 1 "static") || (← atWordAfter 1 "move")
      || (← atMarkAfter 1 "|") || ((← atWordAfter 1 "async") && !((← atWordAfter 2 "unsafe")
        || (← atWordAfter 2 "extern") || (← atWordAfter 2 "fn"))))
  else if ← atWord "unsafe" then return !(← atGroupAfter 1 .brace)
  else if ← atWord "async" then
    return (← atWordAfter 1 "unsafe") || (← atWordAfter 1 "extern") || (← atWordAfter 1 "fn")
  else if ← atWord "union" then atNameAfter 1
  else if ← atWord "auto" then atWordAfter 1 "trait"
  else if ← atWord "default" then return (← atWordAfter 1 "unsafe") || (← atWordAfter 1 "impl")
  else return false

/-- The length of the plain path that tokens begin with. -/
def plainPathLength : List TokenTree → Nat
  | .word _ :: .mark ':' true :: .mark ':' _ :: tokens => plainPathLength tokens + 3
  | .word _ :: _ => 1
  | _ => 0

/-- What kind of macro statement is next: one that declares something, one with braces that is a
statement by itself, or none. -/
inductive MacroStatement where
  | declaration
  | braced
  | none

/-- The kind of macro statement that is next. -/
def macroStatement : Recognizer MacroStatement := do
  let leading := if ← atMark "::" then 2 else 0
  let length := leading + plainPathLength ((← get).drop leading)
  let startsPath := (← atSegment) || (← atMark "::")
  if startsPath && (← atMarkAfter length "!") then
    if (← atNameAfter (length + 1)) || (← atWordAfter (length + 1) "try") then
      return .declaration
    else if ← atGroupAfter (length + 1) .brace then
      let continues := ((← atMarkAfter (length + 2) ".") && !(← atMarkAfter (length + 2) ".."))
        || (← atMarkAfter (length + 2) "?")
      return if continues then .none else .braced
    else return .none
  else return .none

/-- Read a declaration of variables. -/
def letStatement (recur : Recur) : Recognizer Tokens :=
  inOrder [word "let", recur.tokens (.pattern false), typeAndValue recur,
    provided (atWord "else") (inOrder [token, recur.tokens .block]), mark ";"]

/-- Read an expression that is a statement. -/
def expressionStatement (recur : Recur) : Recognizer Tokens := do
  let found ← recur .early
  if (← atEnd) || found.shape == .blockLike then return found.tokens ++ (← mark? ";")
  else return found.tokens ++ (← mark ";")

/-- Read a statement. -/
def statement (recur : Recur) : Recognizer Tokens := do
  if ← atMark ";" then mark ";"
  else
    let attributes ← outerAttributes
    match ← macroStatement with
    | .declaration => return attributes ++ (← recur.tokens .item)
    | .braced =>
      let path ← simplePath recur (bounds recur true) true
      return attributes ++ path ++ (← mark "!") ++ (← rawGroup) ++ (← mark? ";")
    | .none =>
      if ← atWord "let" then return attributes ++ (← letStatement recur)
      else if ← atItem then return attributes ++ (← recur.tokens .item)
      else return attributes ++ (← expressionStatement recur)

/-- Read a block. -/
def block (recur : Recur) : Recognizer Tokens :=
  members (statement recur)

end Peg.Host
