/-
Peg/Text/Span.lean

Spans: the range of byte offsets that something was read from.
-/
namespace Peg

/-- A range of byte offsets. -/
structure Span where
  start : Nat := 0
  stop : Nat := 0
  deriving DecidableEq, Repr, Inhabited

/-- The number of bytes covered, when the end is not before the start. -/
def Span.length? (span : Span) : Option Nat :=
  if span.start ≤ span.stop then some (span.stop - span.start) else none

/-- Whether a span covers nothing. -/
def Span.isEmpty (span : Span) : Bool :=
  span.start == span.stop

end Peg
