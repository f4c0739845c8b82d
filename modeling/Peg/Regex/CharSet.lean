/-
Peg/Regex/CharSet.lean

Sets of characters as they are written in regular expressions: ranges, named
classes, and unions, intersections and complements of them.

A set stays the expression it was written as, and membership is computed from
it.  `anyCase` is closed under case: it holds a character as soon as the inner
set holds one that is equal up to case.  Applied before a complement it makes
`[^a]` refuse both cases of the letter.
-/
import Peg.Text.Blank
import Peg.Text.Letter
import Peg.Text.CaseFolding

namespace Peg.Regex

open Text

/-- Classes of characters that have a name. -/
inductive CharClass where
  | digit
  | blank
  | word
  | letter
  | mark
  | number
  | alphabetic
  deriving DecidableEq, Repr

/-- Membership in a named class. -/
def CharClass.contains : CharClass → Char → Bool
  | .digit, c => isDecimalDigit c
  | .blank, c => isBlank c
  | .word, c => isWordChar c
  | .letter, c => inRanges letters c
  | .mark, c => inRanges marks c
  | .number, c => isNumeric c
  | .alphabetic, c => isAlphabetic c

/-- Sets of characters. -/
inductive CharSet where
  | none
  | range (low high : Char)
  | named (cls : CharClass)
  | union (left right : CharSet)
  | inter (left right : CharSet)
  | compl (set : CharSet)
  | anyCase (set : CharSet)
  deriving DecidableEq, Repr

namespace CharSet

/-- Membership of a character. -/
def contains : CharSet → Char → Bool
  | .none, _ => false
  | .range low high, c => low ≤ c && c ≤ high
  | .named cls, c => cls.contains c
  | .union left right, c => left.contains c || right.contains c
  | .inter left right, c => left.contains c && right.contains c
  | .compl set, c => !set.contains c
  | .anyCase set, c => (caseVariants c).any set.contains

/-- The set of one character. -/
def single (c : Char) : CharSet :=
  .range c c

/-- The set of all characters. -/
def all : CharSet :=
  .compl .none

/-- The characters of the left set that are not in the right one. -/
def difference (left right : CharSet) : CharSet :=
  .inter left (.compl right)

/-- The characters of exactly one of two sets. -/
def symmetricDifference (left right : CharSet) : CharSet :=
  .union (difference left right) (difference right left)

/-- The union of a list of ranges. -/
def ofRanges : List (Char × Char) → CharSet
  | [] => .none
  | [(low, high)] => .range low high
  | (low, high) :: rest => .union (.range low high) (ofRanges rest)

end CharSet

end Peg.Regex
