/-
Peg/Regex/Basic.lean

Regular expressions and how they match at the beginning of a text.

A regular expression says which beginnings of a text it matches and in which
order it prefers them.  Both are given by `heads`: the list, best first, of
the ways to start, each of which either is finished without reading a
character or reads one of a set and goes on as another expression.  `heads`
is defined by recursion on the expression, so no fuel is needed and no loop
can run away.

Repetitions are built from `plus` and `loop`.  The first iteration of a `plus`
may read nothing, which ends it; every later iteration, a `loop`, has to read
something.  Greedy repetitions prefer another iteration to stopping, the
others prefer to stop.

`matchLength?` follows all ways at once, as a list of threads in order of
preference without duplicates.  A thread that finishes cuts off those after
it; the answer is that of the best thread that ever finishes.
-/
import Peg.Regex.CharSet
import Peg.Text.Basic

namespace Peg

open Text

namespace Regex

/-! ### Places and assertions -/

/-- A place between two characters, or at an end of the text. -/
structure Place where
  before : Option Char
  next : Option Char

/-- Where words end and begin around a place. -/
inductive WordEdge where
  | boundary
  | notBoundary
  | wordStart
  | wordEnd
  | notAfterWord
  | notBeforeWord
  deriving DecidableEq, Repr

/-- Conditions on a place, which read nothing.  With `crlf` the two characters of a carriage
return and a line feed end one line, and either of them ends one alone. -/
inductive Assertion where
  | textStart
  | textEnd
  | lineStart (crlf : Bool)
  | lineEnd (crlf : Bool)
  | word (edge : WordEdge) (ascii : Bool)
  deriving DecidableEq, Repr

/-- The characters of words; with `ascii`, only those of the basic alphabet. -/
def isWordIn (ascii : Bool) (c : Char) : Bool :=
  if ascii then c.isAlphanum || c == '_' else isWordChar c

/-- Whether a kind of word edge is at a place with words before and after it or not. -/
def WordEdge.holds (after before : Bool) : WordEdge → Bool
  | .boundary => before != after
  | .notBoundary => before == after
  | .wordStart => !before && after
  | .wordEnd => before && !after
  | .notAfterWord => !before
  | .notBeforeWord => !after

/-- Whether an assertion holds at a place. -/
def Assertion.holds (place : Place) : Assertion → Bool
  | .textStart => place.before.isNone
  | .textEnd => place.next.isNone
  | .lineStart false => place.before.all (· == '\n')
  | .lineEnd false => place.next.all (· == '\n')
  | .lineStart true =>
    place.before.all fun c => c == '\n' || (c == '\r' && place.next != some '\n')
  | .lineEnd true =>
    place.next.all fun c => c == '\r' || (c == '\n' && place.before != some '\r')
  | .word edge ascii =>
    edge.holds (place.next.any (isWordIn ascii)) (place.before.any (isWordIn ascii))

end Regex

/-! ### Expressions -/

/-- Regular expressions. -/
inductive Regex where
  | empty
  | assertion (condition : Regex.Assertion)
  | chars (set : Regex.CharSet)
  | seq (first second : Regex)
  /-- The first expression is preferred. -/
  | alt (first second : Regex)
  /-- One iteration, then a loop. -/
  | plus (greedy : Bool) (body : Regex)
  /-- Any number of iterations that each read something. -/
  | loop (greedy : Bool) (body : Regex)
  deriving DecidableEq, Repr

namespace Regex

/-- The expression that matches nothing at all. -/
def never : Regex :=
  .chars .none

/-- One expression after another. -/
def followedBy : Regex → Regex → Regex
  | .empty, second => second
  | first, second => .seq first second

/-- An expression or nothing. -/
def optional (greedy : Bool) (body : Regex) : Regex :=
  if greedy then .alt body .empty else .alt .empty body

/-- Any number of iterations. -/
def star (greedy : Bool) (body : Regex) : Regex :=
  optional greedy (.plus greedy body)

/-- Several expressions one after the other. -/
def concat : List Regex → Regex
  | [] => .empty
  | [expression] => expression
  | expression :: rest => .seq expression (concat rest)

/-- Several expressions of which the first ones are preferred. -/
def choice : List Regex → Regex
  | [] => never
  | [expression] => expression
  | expression :: rest => .alt expression (choice rest)

/-- At most a number of iterations. -/
def atMost (greedy : Bool) (body : Regex) : Nat → Regex
  | 0 => .empty
  | count + 1 => optional greedy (followedBy body (atMost greedy body count))

/-- Exactly a number of iterations, then something else. -/
def iterate (body after : Regex) : Nat → Regex
  | 0 => after
  | count + 1 => followedBy body (iterate body after count)

/-- At least a number of iterations. -/
def atLeast (greedy : Bool) (body : Regex) : Nat → Regex
  | 0 => star greedy body
  | count + 1 => iterate body (.plus greedy body) count

/-! ### Matching -/

/-- A way to start matching: to be finished, or to read a character and go on. -/
inductive Head where
  | finish
  | read (set : CharSet) (rest : Regex)
  deriving DecidableEq

/-- The ways to start matching at a place, best first. -/
def heads (place : Place) : Regex → List Head
  | .empty => [.finish]
  | .assertion condition => if condition.holds place then [.finish] else []
  | .chars set => [.read set .empty]
  | .seq first second =>
    (heads place first).flatMap fun
      | .finish => heads place second
      | .read set rest => [.read set (followedBy rest second)]
  | .alt first second => heads place first ++ heads place second
  | .plus greedy body =>
    (heads place body).map fun
      | .finish => .finish
      | .read set rest => .read set (followedBy rest (.loop greedy body))
  | .loop greedy body =>
    let another := (heads place body).filterMap fun
      | .finish => none
      | .read set rest => some (.read set (followedBy rest (.loop greedy body)))
    if greedy then another ++ [.finish] else .finish :: another

/-- How to go on after a character, for a way to start that reads it. -/
def Head.afterReading? (c : Char) : Head → Option Regex
  | .finish => none
  | .read set rest => if set.contains c then some rest else none

/-- The ways to start of several threads, best first and without duplicates. -/
def headsOfAll (place : Place) (threads : List Regex) : List Head :=
  (threads.flatMap (heads place)).eraseDups

/-- The length in bytes of the best match among several threads, best first. -/
def bestLength? (threads : List Regex) (before : Option Char) : List Char → Option Nat
  | [] => if (headsOfAll ⟨before, none⟩ threads).contains .finish then some 0 else none
  | c :: cs =>
    let ways := headsOfAll ⟨before, some c⟩ threads
    let next := (ways.takeWhile (· != .finish)).filterMap (·.afterReading? c)
    let further := if next.isEmpty then none else bestLength? next (some c) cs
    match further with
    | some length => some (c.utf8Size + length)
    | none => if ways.contains .finish then some 0 else none

/-- The length in bytes of the preferred match at the beginning of a text. -/
def matchLength? (expression : Regex) (text : List Char) : Option Nat :=
  bestLength? [expression] none text

/-- Whether the empty text is matched. -/
def matchesEmpty (expression : Regex) : Bool :=
  (matchLength? expression []).isSome

end Regex

end Peg
