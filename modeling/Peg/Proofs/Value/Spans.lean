/-
Peg/Proofs/Value/Spans.lean

Changing the spans of a value.

`Value.mapSpans f` replaces every span in a value and leaves all else as it
is.  What values are put together with does not look at spans, so it commutes
with such a change, and the text of a value is not affected at all.

A mapper only brings one span in, that of its alternative, as long as it asks
for no offsets.  Changing the spans of the captures and that one span changes
the spans of its value, and nothing else (`MapperExpr.evaluate_mapSpans`).
-/
import Mathlib.Tactic.Common
import Peg.Mapper.Basic

namespace Peg

namespace Value

mutual

/-- A value with other spans. -/
def mapSpans (f : Span → Span) : Value → Value
  | .absent => .absent
  | .str text => .str text
  | .int number => .int number
  | .list items => .list (mapSpansOfAll f items)
  | .tuple items => .tuple (mapSpansOfAll f items)
  | .node kind span children => .node kind (f span) (mapSpansOfAll f children)

/-- Several values with other spans. -/
def mapSpansOfAll (f : Span → Span) : List Value → List Value
  | [] => []
  | value :: values => value.mapSpans f :: mapSpansOfAll f values

end

variable {f : Span → Span}

@[simp] theorem mapSpansOfAll_eq_map (values : List Value) :
    mapSpansOfAll f values = values.map (mapSpans f) := by
  induction values with
  | nil => rfl
  | cons value values ih => rw [mapSpansOfAll, ih, List.map_cons]

mutual

/-- The text of a value does not depend on its spans. -/
theorem text_mapSpans : ∀ value : Value, (value.mapSpans f).text = value.text
  | .absent | .str _ | .int _ => rfl
  | .list items => by
    rw [mapSpans, text, text, textOfAll_mapSpans items]
  | .tuple items => by
    rw [mapSpans, text, text, textOfAll_mapSpans items]
  | .node kind span children => by
    rw [mapSpans, text, text, textOfAll_mapSpans children]

theorem textOfAll_mapSpans : ∀ values : List Value,
    textOfAll (mapSpansOfAll f values) = textOfAll values
  | [] => rfl
  | value :: values => by
    rw [mapSpansOfAll, textOfAll, textOfAll, text_mapSpans value, textOfAll_mapSpans values]

end

theorem mapSpans_concat (left right : Value) :
    (left.concat right).mapSpans f = (left.mapSpans f).concat (right.mapSpans f) := by
  have htext : (Value.str (left.text ++ right.text)).mapSpans f =
      .str ((left.mapSpans f).text ++ (right.mapSpans f).text) := by
    rw [text_mapSpans, text_mapSpans]
    rfl
  cases left with
  | list items =>
    cases right with
    | list items' => simp [concat, mapSpans]
    | _ => exact htext
  | _ => exact htext

theorem mapSpans_concatAll (values : List Value) :
    (concatAll values).mapSpans f = concatAll (values.map (mapSpans f)) := by
  cases values with
  | nil => rfl
  | cons value values =>
    rw [concatAll, List.map_cons, concatAll]
    induction values generalizing value with
    | nil => rfl
    | cons next values ih =>
      rw [List.foldl_cons, ih, mapSpans_concat, List.map_cons, List.foldl_cons]

theorem mapSpans_ofItems (values : List Value) :
    (ofItems values).mapSpans f = ofItems (values.map (mapSpans f)) := by
  rcases values with - | ⟨value, - | ⟨next, values⟩⟩
  · rfl
  · rfl
  · simp [ofItems, mapSpans]

end Value

/-- The elements that are kept are chosen by their indexes. -/
theorem project_map {α β : Type} (f : α → β) (values : List α) (important : List Nat) :
    project (values.map f) important = (project values important).map f := by
  unfold project
  split
  · rfl
  · rw [List.zipIdx_map, List.filter_map, List.map_map, List.map_map]
    rfl

/-- What an item has matched, with other spans. -/
def Capture.mapSpans (f : Span → Span) (capture : Capture) : Capture :=
  ⟨capture.value.mapSpans f, f capture.span⟩

/-! ### Mappers -/

namespace MapperExpr

mutual

/-- Whether a mapper asks for no offsets. -/
def isPositionless : MapperExpr → Bool
  | .capture _ | .text | .str _ => true
  | .startOf _ | .endOf _ | .start | .stop => false
  | .list items => areAllPositionless items
  | .node _ arguments => areAllPositionless arguments
  | .concat terms => areAllPositionless terms

/-- Whether several mappers ask for no offsets. -/
def areAllPositionless : List MapperExpr → Bool
  | [] => true
  | expr :: exprs => expr.isPositionless && areAllPositionless exprs

end

variable {f : Span → Span} {captures : List Capture} {input input' : List Char} {span : Span}

mutual

/-- The value of a mapper for the same text with other spans. -/
theorem evaluate_mapSpans
    (htext : Text.slice? input' (f span).start (f span).stop =
      Text.slice? input span.start span.stop) :
    ∀ expr : MapperExpr, expr.isPositionless = true →
      expr.evaluate (captures.map (Capture.mapSpans f)) input' (f span) =
        (expr.evaluate captures input span).mapSpans f
  | .capture index, _ => by
    rw [evaluate, evaluate, List.getElem?_map]
    rcases captures[index]? with - | capture
    · rfl
    · rfl
  | .text, _ => by
    rw [evaluate, evaluate, htext]
    rfl
  | .str string, _ => rfl
  | .list items, h => by
    rw [evaluate, evaluate, Value.mapSpans, evaluateAll_mapSpans htext items h]
  | .node kind arguments, h => by
    rw [evaluate, evaluate, Value.mapSpans, evaluateAll_mapSpans htext arguments h]
  | .concat terms, h => by
    rw [evaluate, evaluate, Value.mapSpans_concatAll, ← Value.mapSpansOfAll_eq_map,
      evaluateAll_mapSpans htext terms h]

theorem evaluateAll_mapSpans
    (htext : Text.slice? input' (f span).start (f span).stop =
      Text.slice? input span.start span.stop) :
    ∀ exprs : List MapperExpr, areAllPositionless exprs = true →
      evaluateAll (captures.map (Capture.mapSpans f)) input' (f span) exprs =
        Value.mapSpansOfAll f (evaluateAll captures input span exprs)
  | [], _ => rfl
  | expr :: exprs, h => by
    rw [areAllPositionless, Bool.and_eq_true] at h
    rw [evaluateAll, evaluateAll, Value.mapSpansOfAll, evaluate_mapSpans htext expr h.1,
      evaluateAll_mapSpans htext exprs h.2]

end

end MapperExpr

end Peg
