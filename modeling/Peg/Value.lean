/-
Peg/Value.lean

What a match produces.

A value is a text, a number, a list, a tuple, a node of a syntax tree, or the
mark that nothing was there.  `tuple` is the one way values are put side by
side by a sequence of patterns: a single value stands for itself, so that
parentheses and one-item sequences leave no trace.

`text` is the text a value was read from when nothing has been rearranged,
and `concat` is the sum of mapper expressions: lists are joined, anything
else is joined as text.
-/
import Peg.Text.Span

namespace Peg

/-- Values that matches produce. -/
inductive Value where
  | absent
  | str (text : String)
  | int (number : Nat)
  | list (items : List Value)
  | tuple (items : List Value)
  | node (kind : String) (span : Span) (children : List Value)
  deriving Inhabited

namespace Value

/-- Values side by side; a single one stands for itself. -/
def ofItems : List Value → Value
  | [value] => value
  | values => .tuple values

mutual

/-- The concatenation of all the texts in a value, numbers in decimal. -/
def text : Value → String
  | .absent => ""
  | .str text => text
  | .int number => toString number
  | .list items => textOfAll items
  | .tuple items => textOfAll items
  | .node _ _ children => textOfAll children

/-- The texts of several values one after the other. -/
def textOfAll : List Value → String
  | [] => ""
  | value :: values => text value ++ textOfAll values

end

/-- The values directly inside a list, a tuple or a node. -/
def items : Value → List Value
  | .list items => items
  | .tuple items => items
  | .node _ _ children => children
  | _ => []

/-- The text of a value that is one. -/
def asString? : Value → Option String
  | .str text => some text
  | _ => none

/-- The kind of a node. -/
def kind? : Value → Option String
  | .node kind _ _ => some kind
  | _ => none

def isAbsent : Value → Bool
  | .absent => true
  | _ => false

/-- The sum of two values: one list of all items for two lists, one text for anything else. -/
def concat : Value → Value → Value
  | .list left, .list right => .list (left ++ right)
  | left, right => .str (left.text ++ right.text)

/-- The sum of several values from left to right, nothing for none. -/
def concatAll : List Value → Value
  | [] => .absent
  | value :: values => values.foldl concat value

/-- The value of an optional match. -/
def ofOption : Option Value → Value
  | some value => value
  | none => .absent

end Value

/-- The elements at the given indexes, in the order of the list, or all of them when no index is
given. -/
def project {α : Type} (values : List α) (important : List Nat) : List α :=
  if important.isEmpty then values
  else (values.zipIdx.filter fun entry => important.contains entry.2).map (·.1)

end Peg
