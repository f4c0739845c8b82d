/-
Peg/Regex/Parser.lean

Reading regular expressions.

The reader goes over the text once, one construct at a time, and keeps the
groups and the bracketed classes that are still open on a stack; so both
loops below consume at least a character per step, and the length of the text
bounds them.  Flags are in force from where they are set to the end of the
group around them, the following alternatives included.

Repetition operators stack (`a**`), a closing bracket or brace is an ordinary
character on its own, and a brace always opens a count.  There is no
look-around and there are no back-references.

Which properties of characters have a name, and how large or deep expressions
may get, is up to the engine that reads them.  This is a parameter (`Dialect`),
which the flags carry along; the default one knows the classes that have tables
here.
-/
import Peg.Regex.Basic

namespace Peg.Regex

open Text

/-! ### Dialects -/

/-- The characters of the basic alphabet. -/
def asciiSet : CharSet :=
  .range '\x00' '\x7f'

/-- A name as it is compared: only its letters and digits count, whatever their case, without an
`is` that it begins with.  The name `isc` is no abbreviation of `c`. -/
def looseName (name : String) : String :=
  let significant := fun cs : List Char =>
    cs.filter fun c => c != ' ' && c != '_' && c != '-' && c.toNat < 0x80
  match name.toList.map Char.toLower with
  | 'i' :: 's' :: rest =>
    if significant rest == ['c'] then "isc" else String.ofList (significant rest)
  | cs => String.ofList (significant cs)

/-- The sets of the properties that have a table here, by their names. -/
def tabulated? (name : String) : Option CharSet :=
  match looseName name with
  | "l" | "letter" => some (.named .letter)
  | "m" | "mark" | "combiningmark" => some (.named .mark)
  | "n" | "number" => some (.named .number)
  | "nd" | "decimalnumber" | "digit" => some (.named .digit)
  | "alphabetic" | "alpha" => some (.named .alphabetic)
  | "whitespace" | "wspace" | "space" => some (.named .blank)
  | "any" => some .all
  | "ascii" => some asciiSet
  | _ => none

/-- What an engine for regular expressions knows and allows. -/
structure Dialect where
  /-- The set of a property, by the text that names it. -/
  property? : String → Option CharSet := tabulated?
  /-- The largest weight of an expression whose counts are written out. -/
  maxWeight : Nat := 300000
  /-- Whether a text is within all other limits, such as the one on nesting. -/
  admits : List Char → Bool := fun _ => true

/-! ### Flags -/

/-- The flags in force at some place of an expression, and the dialect of all of it. -/
structure Flags where
  dialect : Dialect := {}
  caseless : Bool := false
  multiLine : Bool := false
  dotAll : Bool := false
  swapGreed : Bool := false
  ascii : Bool := false
  crlf : Bool := false
  verbose : Bool := false

/-- Switch the flag with the given letter on or off. -/
def Flags.set? (flags : Flags) (letter : Char) (on : Bool) : Option Flags :=
  match letter with
  | 'i' => some { flags with caseless := on }
  | 'm' => some { flags with multiLine := on }
  | 's' => some { flags with dotAll := on }
  | 'U' => some { flags with swapGreed := on }
  | 'u' => some { flags with ascii := !on }
  | 'R' => some { flags with crlf := on }
  | 'x' => some { flags with verbose := on }
  | _ => none

/-- Read flags up to the colon or parenthesis that ends them.  A flag or the dash between flags to
switch on and flags to switch off may occur once, and the dash may not come last. -/
def parseFlags? (flags : Flags) (seen : List Char) :
    List Char → Option (Flags × List Char × Char × List Char)
  | [] => none
  | c :: cs =>
    if c == ':' || c == ')' then
      if seen.head? == some '-' then none else some (flags, seen, c, cs)
    else if seen.contains c then none
    else if c == '-' then parseFlags? flags (c :: seen) cs
    else
      match flags.set? c (!seen.contains '-') with
      | some flags => parseFlags? flags (c :: seen) cs
      | none => none

/-- Skip what the verbose flag makes insignificant: blanks, and comments up to the end of a line. -/
def skipComments : (inComment : Bool) → List Char → List Char
  | _, [] => []
  | true, c :: cs => skipComments (c != '\n') cs
  | false, c :: cs =>
    if isBlank c then skipComments false cs
    else if c == '#' then skipComments true cs
    else c :: cs

/-- Skip what is insignificant under the flags in force. -/
def Flags.skip (flags : Flags) (cs : List Char) : List Char :=
  if flags.verbose then skipComments false cs else cs

/-! ### Sets under flags -/

/-- A set as the flags in force want it: closed under case, cut down to ASCII. -/
def Flags.adjust (flags : Flags) (set : CharSet) : CharSet :=
  let set := if flags.caseless then .anyCase set else set
  if flags.ascii then .inter asciiSet set else set

/-- The complement of a set; an expression restricted to ASCII may not leave it. -/
def Flags.complement? (flags : Flags) (set : CharSet) : Option CharSet :=
  if flags.ascii then none else some (.compl set)

/-- The set of a literal character. -/
def Flags.literal? (flags : Flags) (c : Char) : Option CharSet :=
  if flags.ascii && c.toNat > 0x7f then none else some (.single c)

/-- The class of an escaped letter, such as the digits for `d`. -/
def Flags.escapedClass? (flags : Flags) (letter : Char) : Option CharSet :=
  let digits := if flags.ascii then .range '0' '9' else .named .digit
  let blanks := if flags.ascii then .ofRanges [('\t', '\r'), (' ', ' ')] else .named .blank
  let words :=
    if flags.ascii then .ofRanges [('0', '9'), ('A', 'Z'), ('_', '_'), ('a', 'z')]
    else .named .word
  match letter with
  | 'd' => some digits
  | 's' => some blanks
  | 'w' => some words
  | 'D' => flags.complement? digits
  | 'S' => flags.complement? blanks
  | 'W' => flags.complement? words
  | _ => none

/-- What the dot matches. -/
def Flags.dot? (flags : Flags) : Option CharSet :=
  if flags.dotAll then flags.complement? .none
  else if flags.crlf then flags.complement? (.union (.single '\n') (.single '\r'))
  else flags.complement? (.single '\n')

/-- The set of a class named between colons. -/
def posixClass? : String → Option CharSet
  | "alnum" => some (.ofRanges [('0', '9'), ('A', 'Z'), ('a', 'z')])
  | "alpha" => some (.ofRanges [('A', 'Z'), ('a', 'z')])
  | "ascii" => some (.range '\x00' '\x7f')
  | "blank" => some (.ofRanges [('\t', '\t'), (' ', ' ')])
  | "cntrl" => some (.ofRanges [('\x00', '\x1f'), ('\x7f', '\x7f')])
  | "digit" => some (.range '0' '9')
  | "graph" => some (.range '!' '~')
  | "lower" => some (.range 'a' 'z')
  | "print" => some (.range ' ' '~')
  | "punct" => some (.ofRanges [('!', '/'), (':', '@'), ('[', '\x60'), ('\x7b', '~')])
  | "space" => some (.ofRanges [('\t', '\r'), (' ', ' ')])
  | "upper" => some (.range 'A' 'Z')
  | "word" => some (.ofRanges [('0', '9'), ('A', 'Z'), ('_', '_'), ('a', 'z')])
  | "xdigit" => some (.ofRanges [('0', '9'), ('A', 'F'), ('a', 'f')])
  | _ => none

/-- The set of a property, or its complement; both cases of a letter have a property together if the
flags say so.  An expression restricted to ASCII has no properties. -/
def Flags.property? (flags : Flags) (negated : Bool) (name : List Char) : Option CharSet :=
  if flags.ascii then none
  else
    (flags.dialect.property? (String.ofList name)).map fun set =>
      if negated then .compl (flags.adjust set) else flags.adjust set

/-! ### Escapes -/

/-- Read exactly a number of hexadecimal digits. -/
def parseHexDigits? (flags : Flags) : (count value : Nat) → List Char → Option (Nat × List Char)
  | 0, value, cs => some (value, cs)
  | count + 1, value, cs =>
    match cs with
    | [] => none
    | c :: cs =>
      match hexDigit? c with
      | some digit => parseHexDigits? flags count (value * 16 + digit) (flags.skip cs)
      | none => none

/-- Read the significant characters up to a closing brace. -/
def parseBraces? (flags : Flags) (fuel : Nat) (taken : List Char) (cs : List Char) :
    Option (List Char × List Char) :=
  match fuel, flags.skip cs with
  | 0, _ | _, [] => none
  | fuel + 1, c :: cs =>
    if c == '\x7d' then some (taken.reverse, cs) else parseBraces? flags fuel (c :: taken) cs

/-- The character whose number has these hexadecimal digits; there has to be one. -/
def charOfHex? (digits : List Char) : Option Char :=
  match digits.mapM hexDigit? with
  | none | some [] => none
  | some digits => charOf? (digits.foldl (fun value digit => value * 16 + digit) 0)

/-- Read the character of a hexadecimal escape whose bare form has a number of digits. -/
def parseHex? (flags : Flags) (count : Nat) (cs : List Char) : Option (Char × List Char) :=
  match flags.skip cs with
  | '\x7b' :: cs =>
    match parseBraces? flags (cs.length + 1) [] cs with
    | some (digits, cs) => (charOfHex? digits).map (·, cs)
    | none => none
  | cs =>
    match parseHexDigits? flags count 0 cs with
    | some (code, cs) => (charOf? code).map (·, cs)
    | none => none

/-- What an escape or a bare character stands for. -/
inductive Primitive where
  | char (c : Char)
  | cls (set : CharSet)
  | assertion (condition : Assertion)

/-- Read a name in braces after a word boundary, such as its beginning only.  A brace with anything
but a letter or a dash in it opens a count instead. -/
def parseEdge? (cs : List Char) (flags : Flags) : Option (WordEdge × List Char) :=
  let isNameChar := fun c : Char => c.isAlpha || c == '-'
  match cs with
  | '\x7b' :: inside =>
    let inside := flags.skip inside
    match inside with
    | [] => none
    | c :: _ =>
      if isNameChar c then
        let name := inside.takeWhile fun c => isNameChar c || (flags.verbose && isBlank c)
        match inside.drop name.length with
        | '\x7d' :: rest =>
          match String.ofList (name.filter isNameChar) with
          | "start" => some (.wordStart, rest)
          | "end" => some (.wordEnd, rest)
          | "start-half" => some (.notAfterWord, rest)
          | "end-half" => some (.notBeforeWord, rest)
          | _ => none
        | _ => none
      else some (.boundary, cs)
  | _ => some (.boundary, cs)

/-- Read a property after `p` or `P`: a name in braces, or a single character. -/
def parseProperty? (flags : Flags) (negated : Bool) (cs : List Char) :
    Option (CharSet × List Char) :=
  match flags.skip cs with
  | '\x7b' :: cs =>
    match parseBraces? flags (cs.length + 1) [] cs with
    | some (name, cs) => (flags.property? negated name).map (·, cs)
    | none => none
  | '\\' :: _ | [] => none
  | c :: cs => (flags.property? negated [c]).map (·, cs)

/-- Read an escape, from the character after the backslash. -/
def parseEscape? (flags : Flags) : List Char → Option (Primitive × List Char)
  | [] => none
  | c :: cs =>
    let char := fun c => some (Primitive.char c, cs)
    let edge := fun edge => some (Primitive.assertion (.word edge flags.ascii), cs)
    match c with
    | 'x' => (parseHex? flags 2 cs).map fun (c, rest) => (.char c, rest)
    | 'u' => (parseHex? flags 4 cs).map fun (c, rest) => (.char c, rest)
    | 'U' => (parseHex? flags 8 cs).map fun (c, rest) => (.char c, rest)
    | 'p' => (parseProperty? flags false cs).map fun (set, rest) => (.cls set, rest)
    | 'P' => (parseProperty? flags true cs).map fun (set, rest) => (.cls set, rest)
    | 'a' => char '\x07'
    | 'f' => char '\x0c'
    | 't' => char '\t'
    | 'n' => char '\n'
    | 'r' => char '\r'
    | 'v' => char '\x0b'
    | 'A' => some (.assertion .textStart, cs)
    | 'z' => some (.assertion .textEnd, cs)
    | 'b' =>
      (parseEdge? cs flags).map fun (edge, rest) => (.assertion (.word edge flags.ascii), rest)
    | 'B' => edge .notBoundary
    | '<' => edge .wordStart
    | '>' => edge .wordEnd
    | _ =>
      match flags.escapedClass? c with
      | some set => some (.cls set, cs)
      | none => if c.toNat < 0x80 && !c.isAlphanum then char c else none

/-! ### Bracketed classes -/

/-- How the two sides of an operator inside brackets are combined. -/
inductive SetOperator where
  | intersection
  | difference
  | symmetricDifference

/-- Combine two sets. -/
def SetOperator.apply : SetOperator → CharSet → CharSet → CharSet
  | .intersection, left, right => .inter left right
  | .difference, left, right => .difference left right
  | .symmetricDifference, left, right => .symmetricDifference left right

/-- A bracketed class that is being read: the set so far since the last operator, and that operator
with its left side. -/
structure OpenClass where
  negated : Bool
  union : CharSet
  pending : Option (SetOperator × CharSet)

/-- Add a set to an open class. -/
def OpenClass.add (cls : OpenClass) (set : CharSet) : OpenClass :=
  match cls.union with
  | .none => { cls with union := set }
  | union => { cls with union := .union union set }

/-- The set read so far. -/
def OpenClass.collected (cls : OpenClass) (flags : Flags) : CharSet :=
  match cls.pending with
  | some (operator, left) => operator.apply (flags.adjust left) (flags.adjust cls.union)
  | none => cls.union

/-- An open class after an operator. -/
def OpenClass.operate (cls : OpenClass) (flags : Flags) (operator : SetOperator) : OpenClass :=
  { cls with union := .none, pending := some (operator, cls.collected flags) }

/-- The set of a class at its closing bracket. -/
def OpenClass.close? (cls : OpenClass) (flags : Flags) : Option CharSet :=
  let set := flags.adjust (cls.collected flags)
  if cls.negated then flags.complement? set else some set

/-- Skip dashes that stand for themselves, and tell whether there were any. -/
def skipDashes (flags : Flags) : (fuel : Nat) → (found : Bool) → List Char → Bool × List Char
  | fuel + 1, _, '-' :: cs => skipDashes flags fuel true (flags.skip cs)
  | _, found, cs => (found, cs)

/-- Read the beginning of a bracketed class after the bracket: a negation, and dashes or a closing
bracket that stand for themselves there. -/
def openClass (flags : Flags) (cs : List Char) : OpenClass × List Char :=
  let cs := flags.skip cs
  let (negated, cs) := match cs with
    | '^' :: cs => (true, flags.skip cs)
    | cs => (false, cs)
  match skipDashes flags cs.length false cs with
  | (true, cs) => (⟨negated, .single '-', none⟩, cs)
  | (false, ']' :: cs) => (⟨negated, .single ']', none⟩, flags.skip cs)
  | (false, cs) => (⟨negated, .none, none⟩, cs)

/-- Read a class named between colons, from the colon. -/
def parsePosix? (flags : Flags) (cs : List Char) : Option (CharSet × List Char) :=
  match cs with
  | ':' :: cs =>
    let (negated, cs) := match cs with
      | '^' :: cs => (true, cs)
      | cs => (false, cs)
    let name := cs.takeWhile (· != ':')
    match cs.drop name.length with
    | ':' :: ']' :: rest =>
      match posixClass? (String.ofList name) with
      | some set => if negated then (flags.complement? set).map (·, rest) else some (set, rest)
      | none => none
    | _ => none
  | _ => none

/-- Read a character or an escape inside brackets. -/
def parseSetItem? (flags : Flags) : List Char → Option (Primitive × List Char)
  | [] => none
  | '\\' :: cs => parseEscape? flags cs
  | c :: cs => some (.char c, cs)

/-- Read a range, or a single item that starts none. -/
def parseSetRange? (flags : Flags) (cs : List Char) : Option (CharSet × List Char) :=
  match parseSetItem? flags cs with
  | none => none
  | some (item, cs) =>
    let cs := flags.skip cs
    let alone : Option (CharSet × List Char) := match item with
      | .char c => (flags.literal? c).map (·, cs)
      | .cls set => some (set, cs)
      | .assertion _ => none
    match cs with
    | '-' :: after =>
      match flags.skip after with
      | [] => none
      | ']' :: _ | '-' :: _ => alone
      | after =>
        match item, parseSetItem? flags after with
        | .char low, some (.char high, rest) =>
          if flags.ascii && (low.toNat > 0x7f || high.toNat > 0x7f) then none
          else if low ≤ high then some (.range low high, rest) else none
        | _, _ => none
    | _ => alone

/-- Read a bracketed class to its closing bracket.  `outer` holds the classes around it. -/
def parseClass? (flags : Flags) :
    (fuel : Nat) → (cls : OpenClass) → (outer : List OpenClass) → List Char →
      Option (CharSet × List Char)
  | 0, _, _, _ => none
  | fuel + 1, cls, outer, cs =>
    match flags.skip cs with
    | [] => none
    | '[' :: cs =>
      match parsePosix? flags cs with
      | some (set, cs) => parseClass? flags fuel (cls.add set) outer cs
      | none =>
        let (inner, cs) := openClass flags cs
        parseClass? flags fuel inner (cls :: outer) cs
    | ']' :: cs =>
      match cls.close? flags, outer with
      | none, _ => none
      | some set, [] => some (set, cs)
      | some set, parent :: outer => parseClass? flags fuel (parent.add set) outer cs
    | '&' :: '&' :: cs => parseClass? flags fuel (cls.operate flags .intersection) outer cs
    | '-' :: '-' :: cs => parseClass? flags fuel (cls.operate flags .difference) outer cs
    | '~' :: '~' :: cs => parseClass? flags fuel (cls.operate flags .symmetricDifference) outer cs
    | cs =>
      match parseSetRange? flags cs with
      | some (set, cs) => parseClass? flags fuel (cls.add set) outer cs
      | none => none

/-! ### Counts -/

/-- How often something is repeated. -/
structure Count where
  least : Nat
  most : Option Nat

/-- Read a number of iterations, which blanks may surround. -/
def parseDecimal? (flags : Flags) (cs : List Char) : Option (Nat × List Char) :=
  let cs := cs.dropWhile isBlank
  let isDigitChar := fun c : Char => c.isDigit || (flags.verbose && isBlank c)
  let digits := (cs.takeWhile isDigitChar).filter (·.isDigit)
  let rest := flags.skip ((cs.dropWhile isDigitChar).dropWhile isBlank)
  ((numberOf? 10 digits).filter (· < UInt32.size)).map (·, rest)

/-- Read a count after its opening brace. -/
def parseCount? (flags : Flags) (cs : List Char) : Option (Count × List Char) :=
  match parseDecimal? flags (flags.skip cs) with
  | some (least, '\x7d' :: cs) => some (⟨least, some least⟩, cs)
  | some (least, ',' :: cs) =>
    match flags.skip cs with
    | '\x7d' :: cs => some (⟨least, none⟩, cs)
    | cs =>
      match parseDecimal? flags cs with
      | some (most, '\x7d' :: cs) => if least ≤ most then some (⟨least, some most⟩, cs) else none
      | _ => none
  | _ => none

/-- An estimate of the room an expression takes once its counts are written out. -/
def weight : Regex → Nat
  | .empty | .assertion _ => 1
  | .chars (.range _ _) => 1
  | .chars _ => 8
  | .seq first second | .alt first second => weight first + weight second + 1
  | .plus _ body | .loop _ body => weight body + 1

/-- An expression repeated; `none` if the result is too large for a dialect. -/
def Count.repeat? (count : Count) (dialect : Dialect) (greedy : Bool) (body : Regex) :
    Option Regex :=
  if weight body * max count.least (count.most.getD 0) > dialect.maxWeight then none
  else
    match count.most with
    | none => some (atLeast greedy body count.least)
    | some most => some (iterate body (atMost greedy body (most - count.least)) count.least)

/-! ### Expressions -/

/-- What a sequence is made of.  Flags take part in it but cannot be repeated. -/
inductive Item where
  | expression (regex : Regex)
  | flags

/-- A group that is open: its finished alternatives and the items of the current one, both
latest first, and the flags in force around the group. -/
structure OpenGroup where
  alternatives : List Regex := []
  items : List Item := []
  outerFlags : Flags := {}

/-- The sequence of the items of a group. -/
def OpenGroup.sequence (group : OpenGroup) : Regex :=
  concat (group.items.reverse.filterMap fun
    | .expression regex => some regex
    | .flags => none)

/-- The group so far as one expression. -/
def OpenGroup.close (group : OpenGroup) : Regex :=
  choice (group.sequence :: group.alternatives).reverse

/-- Add an item to a group. -/
def OpenGroup.push (group : OpenGroup) (item : Item) : OpenGroup :=
  { group with items := item :: group.items }

/-- Repeat the last item of a group, which has to be an expression. -/
def OpenGroup.repeatLast? (group : OpenGroup) (f : Regex → Option Regex) : Option OpenGroup :=
  match group.items with
  | .expression regex :: items =>
    (f regex).map fun regex => { group with items := .expression regex :: items }
  | _ => none

/-- Read the question mark that makes a repetition prefer to stop. -/
def parseLazy (flags : Flags) : List Char → Bool × List Char
  | '?' :: cs => (flags.swapGreed, cs)
  | cs => (!flags.swapGreed, cs)

/-- Read the name of a group up to the angle bracket that ends it. -/
def parseGroupName? (cs : List Char) : Option (List Char × List Char) :=
  let name := cs.takeWhile (· != '>')
  let isContinuing := fun c => isAlphanumeric c || c == '_' || c == '.' || c == '[' || c == ']'
  match name, cs.drop name.length with
  | first :: others, _ :: rest =>
    if (isAlphabetic first || first == '_') && others.all isContinuing then some (name, rest)
    else none
  | _, _ => none

/-- What an opening parenthesis begins. -/
inductive Opening where
  | group (flags : Flags) (name : Option (List Char))
  | flags (flags : Flags)

/-- Read what follows an opening parenthesis. -/
def parseOpening? (flags : Flags) (cs : List Char) : Option (Opening × List Char) :=
  let named := fun cs =>
    (parseGroupName? cs).map fun (name, rest) => (Opening.group flags (some name), rest)
  match flags.skip cs with
  | '?' :: 'P' :: '<' :: cs => named cs
  | '?' :: '<' :: '=' :: _ | '?' :: '<' :: '!' :: _ => none
  | '?' :: '<' :: cs => named cs
  | '?' :: cs =>
    match parseFlags? flags [] cs with
    | some (inner, seen, ')', cs) =>
      if seen.isEmpty then none else some (.flags inner, cs)
    | some (inner, _, _, cs) => some (.group inner none, cs)
    | none => none
  | cs => some (.group flags none, cs)

/-- The assertion that a circumflex stands for. -/
def Flags.startAssertion (flags : Flags) : Assertion :=
  if flags.multiLine then .lineStart flags.crlf else .textStart

/-- The assertion that a dollar sign stands for. -/
def Flags.endAssertion (flags : Flags) : Assertion :=
  if flags.multiLine then .lineEnd flags.crlf else .textEnd

/-- The expression of an escape or a bare character. -/
def Primitive.toRegex? (flags : Flags) : Primitive → Option Regex
  | .char c => (flags.literal? c).map fun set => .chars (flags.adjust set)
  | .cls set => some (.chars set)
  | .assertion condition => some (.assertion condition)

/-- What is being read: the innermost group, the groups around it, the flags in force and the
names of groups so far. -/
structure Reading where
  group : OpenGroup := {}
  outer : List OpenGroup := []
  flags : Flags := {}
  names : List (List Char) := []

/-- Add an expression to the innermost group. -/
def Reading.push (reading : Reading) (regex : Regex) : Reading :=
  { reading with group := reading.group.push (.expression regex) }

/-- Repeat the last expression, as greedily as the text that follows says. -/
def Reading.repeatLast? (reading : Reading) (cs : List Char)
    (f : Bool → Regex → Option Regex) : Option (Reading × List Char) :=
  let (greedy, cs) := parseLazy reading.flags cs
  (reading.group.repeatLast? (f greedy)).map fun group => ({ reading with group }, cs)

/-- Start what an opening parenthesis begins. -/
def Reading.open? (reading : Reading) (cs : List Char) : Option (Reading × List Char) :=
  match parseOpening? reading.flags cs with
  | none => none
  | some (.flags flags, cs) =>
    some ({ reading with group := reading.group.push .flags, flags }, cs)
  | some (.group flags name, cs) =>
    if name.any reading.names.contains then none
    else
      some ({ group := { outerFlags := reading.flags }, outer := reading.group :: reading.outer,
              flags, names := name.toList ++ reading.names }, cs)

/-- Read the next construct. -/
def Reading.step? (reading : Reading) : List Char → Option (Reading × List Char)
  | [] => none
  | '(' :: cs => reading.open? cs
  | ')' :: cs =>
    match reading.outer with
    | [] => none
    | group :: outer =>
      some ({ reading with
        group := group.push (.expression reading.group.close), outer,
        flags := reading.group.outerFlags }, cs)
  | '|' :: cs =>
    some ({ reading with
      group := { reading.group with
        alternatives := reading.group.sequence :: reading.group.alternatives, items := [] } }, cs)
  | '[' :: cs =>
    let (cls, cs) := openClass reading.flags cs
    (parseClass? reading.flags (2 * cs.length + 1) cls [] cs).map fun (set, cs) =>
      (reading.push (.chars set), cs)
  | '?' :: cs => reading.repeatLast? cs fun greedy body => some (optional greedy body)
  | '*' :: cs => reading.repeatLast? cs fun greedy body => some (star greedy body)
  | '+' :: cs => reading.repeatLast? cs fun greedy body => some (.plus greedy body)
  | '\x7b' :: cs =>
    match parseCount? reading.flags cs with
    | some (count, cs) =>
      reading.repeatLast? (reading.flags.skip cs) (count.repeat? reading.flags.dialect)
    | none => none
  | '\\' :: cs =>
    match parseEscape? reading.flags cs with
    | some (primitive, cs) =>
      (primitive.toRegex? reading.flags).map fun regex => (reading.push regex, cs)
    | none => none
  | '.' :: cs => reading.flags.dot?.map fun set => (reading.push (.chars set), cs)
  | '^' :: cs => some (reading.push (.assertion reading.flags.startAssertion), cs)
  | '$' :: cs => some (reading.push (.assertion reading.flags.endAssertion), cs)
  | c :: cs =>
    ((Primitive.char c).toRegex? reading.flags).map fun regex => (reading.push regex, cs)

/-- Read constructs to the end of the text, where no group may be open. -/
def Reading.finish? : (fuel : Nat) → Reading → List Char → Option Regex
  | 0, _, _ => none
  | fuel + 1, reading, cs =>
    match reading.flags.skip cs with
    | [] => if reading.outer.isEmpty then some reading.group.close else none
    | cs =>
      match reading.step? cs with
      | some (reading, cs) => Reading.finish? fuel reading cs
      | none => none

/-- The regular expression that a text stands for in a dialect, if it is one. -/
def parse? (dialect : Dialect) (text : List Char) : Option Regex :=
  Reading.finish? (text.length + 1) { flags := { dialect } } text

/-- The text of a pattern: its source in a group with its flags, at the start of the text. -/
def patternText (source flags : String) : List Char :=
  "^(?".toList ++ flags.toList ++ ":".toList ++ source.toList ++ ")".toList

/-- The expression of a pattern, if its text is one within the limits. -/
def pattern? (source flags : String) (dialect : Dialect := {}) : Option Regex :=
  let text := patternText source flags
  if dialect.admits text then parse? dialect text else none

/-- A pattern the way grammars write it. -/
def describe (source flags : String) : String :=
  "/" ++ source ++ "/" ++ flags

end Peg.Regex
