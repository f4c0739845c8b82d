/-
Peg/Proofs/Value/Shape.lean

Values without their spans, and mappers that give nothing else.

Two matches of the same text at different places give the same value up to
spans, as long as mappers do not ask for offsets.  For such a mapper the value
without its spans is a function of the values of the items without theirs and
of the text that was matched (`MapperExpr.shape`).
-/
import Peg.Proofs.Value.Spans

namespace Peg

namespace Value

mutual

/-- A value without its spans. -/
def eraseSpans : Value → Value
  | .absent => .absent
  | .str text => .str text
  | .int number => .int number
  | .list items => .list (eraseSpansOfAll items)
  | .tuple items => .tuple (eraseSpansOfAll items)
  | .node kind _ children => .node kind {} (eraseSpansOfAll children)

/-- Several values without their spans. -/
def eraseSpansOfAll : List Value → List Value
  | [] => []
  | value :: values => value.eraseSpans :: eraseSpansOfAll values

end

@[simp] theorem eraseSpansOfAll_eq_map (values : List Value) :
    eraseSpansOfAll values = values.map eraseSpans := by
  induction values with
  | nil => rfl
  | cons value values ih => rw [eraseSpansOfAll, ih, List.map_cons]

mutual

theorem eraseSpans_eq_mapSpans : ∀ value : Value, value.eraseSpans = value.mapSpans fun _ => {}
  | .absent | .str _ | .int _ => rfl
  | .list items => by
    rw [eraseSpans, mapSpans, eraseSpansOfAll_eq_mapSpansOfAll items]
  | .tuple items => by
    rw [eraseSpans, mapSpans, eraseSpansOfAll_eq_mapSpansOfAll items]
  | .node kind span children => by
    rw [eraseSpans, mapSpans, eraseSpansOfAll_eq_mapSpansOfAll children]

theorem eraseSpansOfAll_eq_mapSpansOfAll : ∀ values : List Value,
    eraseSpansOfAll values = mapSpansOfAll (fun _ => {}) values
  | [] => rfl
  | value :: values => by
    rw [eraseSpansOfAll, mapSpansOfAll, eraseSpans_eq_mapSpans value,
      eraseSpansOfAll_eq_mapSpansOfAll values]

end

theorem eraseSpans_eq : eraseSpans = mapSpans fun _ => {} :=
  funext eraseSpans_eq_mapSpans

theorem eraseSpans_concatAll (values : List Value) :
    (concatAll values).eraseSpans = concatAll (values.map eraseSpans) := by
  rw [eraseSpans_eq, mapSpans_concatAll]

theorem eraseSpans_ofItems (values : List Value) :
    (ofItems values).eraseSpans = ofItems (values.map eraseSpans) := by
  rw [eraseSpans_eq, mapSpans_ofItems]

end Value

/-! ### Mappers -/

namespace MapperExpr

mutual

/-- The value of a mapper without spans, from those of the items and from the text of the whole.
Offsets have no value without spans. -/
def shape (values : List Value) (word : List Char) : MapperExpr → Value
  | .capture index => (values[index]?).getD .absent
  | .text => .str (String.ofList word)
  | .str string => .str string
  | .startOf _ | .endOf _ | .start | .stop => .absent
  | .list items => .list (shapeOfAll values word items)
  | .node kind arguments => .node kind {} (shapeOfAll values word arguments)
  | .concat terms => Value.concatAll (shapeOfAll values word terms)

/-- The values of several mappers without spans. -/
def shapeOfAll (values : List Value) (word : List Char) : List MapperExpr → List Value
  | [] => []
  | expr :: exprs => shape values word expr :: shapeOfAll values word exprs

end

variable {captures : List Capture} {input word : List Char} {span : Span}

mutual

theorem eraseSpans_evaluate (hword : Text.slice? input span.start span.stop = some word) :
    ∀ expr : MapperExpr, expr.isPositionless = true →
      (expr.evaluate captures input span).eraseSpans =
        expr.shape (captures.map fun capture => capture.value.eraseSpans) word
  | .capture index, _ => by
    rw [evaluate, shape, List.getElem?_map]
    rcases captures[index]? with - | capture
    · rfl
    · rfl
  | .text, _ => by
    rw [evaluate, shape, hword]
    rfl
  | .str string, _ => rfl
  | .list items, h => by
    rw [evaluate, shape, Value.eraseSpans, eraseSpans_evaluateAll hword items h]
  | .node kind arguments, h => by
    rw [evaluate, shape, Value.eraseSpans, eraseSpans_evaluateAll hword arguments h]
  | .concat terms, h => by
    rw [evaluate, shape, Value.eraseSpans_concatAll, ← Value.eraseSpansOfAll_eq_map,
      eraseSpans_evaluateAll hword terms h]

theorem eraseSpans_evaluateAll (hword : Text.slice? input span.start span.stop = some word) :
    ∀ exprs : List MapperExpr, areAllPositionless exprs = true →
      Value.eraseSpansOfAll (evaluateAll captures input span exprs) =
        shapeOfAll (captures.map fun capture => capture.value.eraseSpans) word exprs
  | [], _ => rfl
  | expr :: exprs, h => by
    rw [areAllPositionless, Bool.and_eq_true] at h
    rw [evaluateAll, shapeOfAll, Value.eraseSpansOfAll, eraseSpans_evaluate hword expr h.1,
      eraseSpans_evaluateAll hword exprs h.2]

end

end MapperExpr

end Peg
