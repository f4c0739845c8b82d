/-
Peg/Proofs/Value/Bounds.lean

Values whose offsets are offsets of a text.

The numbers in a value and the spans of its nodes come from mappers, which
take them from the spans of an alternative and of its items.  So a mapper
gives a value within the bounds of a text whenever the spans and the values it
is given are (`inBounds_evaluate`), and so does everything else that values
are put together with.
-/
import Mathlib.Tactic.Common
import Peg.Mapper.Basic
import Peg.Proofs.Text.Boundary
import Peg.Proofs.Value.Hereditary

namespace Peg

open Text

namespace Value

mutual

/-- The numbers in a value are offsets of a text, and its spans go forward from one to another. -/
def InBounds (input : List Char) : Value → Prop
  | .absent | .str _ => True
  | .int number => IsOffset input number
  | .list items => AreInBounds input items
  | .tuple items => AreInBounds input items
  | .node _ span children => span.Within true input ∧ AreInBounds input children

/-- The same for several values. -/
def AreInBounds (input : List Char) : List Value → Prop
  | [] => True
  | value :: values => value.InBounds input ∧ AreInBounds input values

end

variable {input : List Char}

theorem areInBounds_iff {values : List Value} :
    AreInBounds input values ↔ ∀ value ∈ values, value.InBounds input := by
  induction values with
  | nil => simp [AreInBounds]
  | cons value values ih => rw [AreInBounds, ih, List.forall_mem_cons]

/-- To be in bounds passes from the items of lists and tuples to the whole. -/
theorem inBounds_hereditary : Hereditary (InBounds input) where
  absent := trivial
  str _ := trivial
  list _ := areInBounds_iff
  tuple _ := areInBounds_iff

end Value

/-! ### Mappers -/

/-- What an item has matched is within the bounds of a text. -/
structure Capture.InBounds (input : List Char) (capture : Capture) : Prop where
  value : capture.value.InBounds input
  span : capture.span.Within true input

theorem Capture.inBounds_values {input : List Char} {captures : List Capture}
    (h : ∀ capture ∈ captures, capture.InBounds input) :
    ∀ value ∈ captures.map (·.value), value.InBounds input :=
  List.forall_mem_map.2 fun capture hcapture => (h capture hcapture).value

namespace MapperExpr

variable {captures : List Capture} {input : List Char} {span : Span}

mutual

/-- Mappers give values in bounds for captures in bounds. -/
theorem inBounds_evaluate (hcaptures : ∀ capture ∈ captures, capture.InBounds input)
    (hspan : span.Within true input) :
    ∀ expr : MapperExpr, (expr.evaluate captures input span).InBounds input
  | .capture index => by
    rw [evaluate]
    rcases hcapture : captures[index]? with - | capture
    · trivial
    · exact (hcaptures capture (List.mem_of_getElem? hcapture)).value
  | .startOf index => by
    rw [evaluate]
    rcases hcapture : captures[index]? with - | capture
    · trivial
    · exact (hcaptures capture (List.mem_of_getElem? hcapture)).span.start
  | .endOf index => by
    rw [evaluate]
    rcases hcapture : captures[index]? with - | capture
    · trivial
    · exact (hcaptures capture (List.mem_of_getElem? hcapture)).span.stop
  | .text => trivial
  | .start => hspan.start
  | .stop => hspan.stop
  | .str string => trivial
  | .list items => Value.areInBounds_iff.2 (inBounds_evaluateAll hcaptures hspan items)
  | .node kind arguments =>
    ⟨hspan, Value.areInBounds_iff.2 (inBounds_evaluateAll hcaptures hspan arguments)⟩
  | .concat terms =>
    Value.inBounds_hereditary.concatAll (inBounds_evaluateAll hcaptures hspan terms)

theorem inBounds_evaluateAll (hcaptures : ∀ capture ∈ captures, capture.InBounds input)
    (hspan : span.Within true input) :
    ∀ exprs : List MapperExpr,
      ∀ value ∈ evaluateAll captures input span exprs, value.InBounds input
  | [], value, hvalue => by cases hvalue
  | expr :: exprs, value, hvalue => by
    rcases List.mem_cons.1 hvalue with rfl | hvalue
    · exact inBounds_evaluate hcaptures hspan expr
    · exact inBounds_evaluateAll hcaptures hspan exprs value hvalue

end

end MapperExpr

end Peg
