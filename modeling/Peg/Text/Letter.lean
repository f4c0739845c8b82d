/-
Peg/Text/Letter.lean

Classes of characters put together from the categories: alphabetic and
alphanumeric characters, the characters of words, and those that start or
continue identifiers.
-/
import Peg.Text.Category

namespace Peg.Text

/-- Letters, numbers written with letters, and what counts as either. -/
def isAlphabetic (c : Char) : Bool :=
  inRanges letters c || inRanges letterNumbers c || inRanges alphabeticSymbols c
    || inRanges alphabeticMarks c

/-- Any number: digits, numbers written with letters, fractions and the like. -/
def isNumeric (c : Char) : Bool :=
  inRanges decimalDigits c || inRanges letterNumbers c || inRanges otherNumbers c

def isAlphanumeric (c : Char) : Bool :=
  isAlphabetic c || isNumeric c

/-- Decimal digits of every script. -/
def isDecimalDigit (c : Char) : Bool :=
  inRanges decimalDigits c

/-- The characters of words: alphabetic ones, marks, digits, connectors and the two joiners. -/
def isWordChar (c : Char) : Bool :=
  isAlphabetic c || inRanges marks c || inRanges decimalDigits c || inRanges connectors c
    || c == '\u200c' || c == '\u200d'

/-! ### Identifiers -/

/-- Letters that start no identifier, as their compatibility forms do not. -/
def nonStarting : List Nat :=
  [0x37a, 0xe33, 0xeb3, 0x2e2f, 0xfc5e, 0xfc5f, 0xfc60, 0xfc61, 0xfc62, 0xfc63, 0xfdfa, 0xfdfb,
   0xfe70, 0xfe72, 0xfe74, 0xfe76, 0xfe78, 0xfe7a, 0xfe7c, 0xfe7e, 0xff9e, 0xff9f]

/-- Letters and marks that continue no identifier. -/
def nonContinuing : List (Nat × Nat) :=
  [(0x37a, 0x37a), (0x488, 0x489), (0x1abe, 0x1abe), (0x20dd, 0x20e0), (0x20e2, 0x20e4),
   (0x2e2f, 0x2e2f), (0xa670, 0xa672), (0xfc5e, 0xfc63), (0xfdfa, 0xfdfb), (0xfe70, 0xfe70),
   (0xfe72, 0xfe72), (0xfe74, 0xfe74), (0xfe76, 0xfe76), (0xfe78, 0xfe78), (0xfe7a, 0xfe7a),
   (0xfe7c, 0xfe7c), (0xfe7e, 0xfe7e)]

/-- Characters that continue identifiers without being letters, marks, digits or connectors. -/
def alsoContinuing : List (Nat × Nat) :=
  [(0xb7, 0xb7), (0x387, 0x387), (0x1369, 0x1371), (0x19da, 0x19da), (0x2118, 0x2118),
   (0x212e, 0x212e)]

/-- The property `XID_Start`. -/
def startsIdentifier (c : Char) : Bool :=
  ((inRanges letters c || inRanges letterNumbers c) && !nonStarting.contains c.toNat)
    || [0x1885, 0x1886, 0x2118, 0x212e].contains c.toNat

/-- The property `XID_Continue`. -/
def continuesIdentifier (c : Char) : Bool :=
  ((inRanges letters c || inRanges letterNumbers c || inRanges marks c
      || inRanges decimalDigits c || inRanges connectors c) && !inRanges nonContinuing c)
    || inRanges alsoContinuing c

end Peg.Text
