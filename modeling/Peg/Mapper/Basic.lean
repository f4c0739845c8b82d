/-
Peg/Mapper/Basic.lean

Mapper expressions: what an alternative makes of the values of its items.

An expression has access to the captures of its alternative, which are the
value and the span of each item, and to the text and the span of the whole.
Its value is built from those by lists, nodes and sums.
-/
import Peg.Value
import Peg.Text.Basic

namespace Peg

/-- Mapper expressions. -/
inductive MapperExpr where
  /-- `$N` -/
  | capture (index : Nat)
  /-- `$startN` -/
  | startOf (index : Nat)
  /-- `$endN` -/
  | endOf (index : Nat)
  /-- `text()` -/
  | text
  /-- `start` -/
  | start
  /-- `end` -/
  | stop
  | str (string : String)
  | list (items : List MapperExpr)
  | node (kind : String) (arguments : List MapperExpr)
  | concat (terms : List MapperExpr)

/-- What an item of a sequence has matched. -/
structure Capture where
  value : Value
  span : Span

namespace MapperExpr

mutual

/-- The greatest index of a capture in an expression. -/
def maxCapture? : MapperExpr → Option Nat
  | .capture index | .startOf index | .endOf index => some index
  | .text | .start | .stop | .str _ => none
  | .list items => maxCaptureOfAll? items
  | .node _ arguments => maxCaptureOfAll? arguments
  | .concat terms => maxCaptureOfAll? terms

/-- The greatest index of a capture in several expressions. -/
def maxCaptureOfAll? : List MapperExpr → Option Nat
  | [] => none
  | expr :: exprs =>
    match maxCapture? expr, maxCaptureOfAll? exprs with
    | some left, some right => some (max left right)
    | some left, none => some left
    | none, right => right

end

mutual

/-- The value of an expression for an alternative that has matched a span of the input. -/
def evaluate (captures : List Capture) (input : List Char) (span : Span) : MapperExpr → Value
  | .capture index => ((captures[index]?).map (·.value)).getD .absent
  | .startOf index => ((captures[index]?).map fun capture => .int capture.span.start).getD .absent
  | .endOf index => ((captures[index]?).map fun capture => .int capture.span.stop).getD .absent
  | .text => .str (String.ofList ((Text.slice? input span.start span.stop).getD []))
  | .start => .int span.start
  | .stop => .int span.stop
  | .str string => .str string
  | .list items => .list (evaluateAll captures input span items)
  | .node kind arguments => .node kind span (evaluateAll captures input span arguments)
  | .concat terms => Value.concatAll (evaluateAll captures input span terms)

/-- The values of several expressions. -/
def evaluateAll (captures : List Capture) (input : List Char) (span : Span) :
    List MapperExpr → List Value
  | [] => []
  | expr :: exprs => evaluate captures input span expr :: evaluateAll captures input span exprs

end

end MapperExpr

end Peg
