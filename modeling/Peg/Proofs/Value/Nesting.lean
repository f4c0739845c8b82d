/-
Peg/Proofs/Value/Nesting.lean

Values that nest like the text they cover.

`value.NestsIn outer` says that every node of a value that is not inside
another node has a span within `outer`, and that the children of every node
nest in the span of the node.  Spans are transitive, so this is a statement
about all nodes, however deep (`NestsIn.node`).

A mapper may take captures apart, repeat them, drop them and put them into new
nodes.  Each capture nests in the span of its item, that is within the span of
the alternative, and that is the one span a mapper gives to new nodes.
-/
import Mathlib.Tactic.Common
import Peg.Mapper.Basic
import Peg.Proofs.Value.Hereditary

namespace Peg

/-! ### Spans -/

/-- A range that goes forward, within another one. -/
structure Span.IsInside (inner outer : Span) : Prop where
  start : outer.start ≤ inner.start
  inOrder : inner.start ≤ inner.stop
  stop : inner.stop ≤ outer.stop

namespace Span

theorem IsInside.trans {inner middle outer : Span} (h : inner.IsInside middle)
    (h' : middle.IsInside outer) : inner.IsInside outer :=
  ⟨Nat.le_trans h'.start h.start, h.inOrder, Nat.le_trans h.stop h'.stop⟩

theorem IsInside.self {span : Span} (h : span.start ≤ span.stop) : span.IsInside span :=
  ⟨Nat.le_refl _, h, Nat.le_refl _⟩

end Span

namespace Value

/-! ### Values inside values -/

mutual

/-- A value and all those inside it, the outer ones first. -/
def parts : Value → List Value
  | .absent => [.absent]
  | .str text => [.str text]
  | .int number => [.int number]
  | .list items => .list items :: partsOfAll items
  | .tuple items => .tuple items :: partsOfAll items
  | .node kind span children => .node kind span children :: partsOfAll children

/-- Several values and all those inside them. -/
def partsOfAll : List Value → List Value
  | [] => []
  | value :: values => value.parts ++ partsOfAll values

end

mutual

/-- The nodes of a value are within a span, and the children of each within its own. -/
def NestsIn (outer : Span) : Value → Prop
  | .absent | .str _ | .int _ => True
  | .list items => AllNestIn outer items
  | .tuple items => AllNestIn outer items
  | .node _ span children => span.IsInside outer ∧ AllNestIn span children

/-- The same for several values. -/
def AllNestIn (outer : Span) : List Value → Prop
  | [] => True
  | value :: values => value.NestsIn outer ∧ AllNestIn outer values

end

variable {span outer wider : Span} {value : Value}

theorem allNestIn_iff {values : List Value} :
    AllNestIn outer values ↔ ∀ value ∈ values, value.NestsIn outer := by
  induction values with
  | nil => simp [AllNestIn]
  | cons value values ih => rw [AllNestIn, ih, List.forall_mem_cons]

/-- Nesting passes from the items of lists and tuples to the whole. -/
theorem nestsIn_hereditary : Hereditary (NestsIn outer) where
  absent := trivial
  str _ := trivial
  list _ := allNestIn_iff
  tuple _ := allNestIn_iff

mutual

/-- What nests in a span nests in a wider one. -/
theorem NestsIn.widen (hstart : wider.start ≤ outer.start) (hstop : outer.stop ≤ wider.stop) :
    ∀ {value : Value}, value.NestsIn outer → value.NestsIn wider
  | .absent, _ | .str _, _ | .int _, _ => trivial
  | .list _, h | .tuple _, h => AllNestIn.widen hstart hstop h
  | .node _ _ _, ⟨hspan, hchildren⟩ =>
    ⟨⟨Nat.le_trans hstart hspan.start, hspan.inOrder, Nat.le_trans hspan.stop hstop⟩, hchildren⟩

theorem AllNestIn.widen (hstart : wider.start ≤ outer.start) (hstop : outer.stop ≤ wider.stop) :
    ∀ {values : List Value}, AllNestIn outer values → AllNestIn wider values
  | [], _ => trivial
  | _ :: _, ⟨hvalue, hvalues⟩ => ⟨hvalue.widen hstart hstop, hvalues.widen hstart hstop⟩

end

/-! ### Nodes at any depth -/

variable {kind : String} {children : List Value}

mutual

/-- The children of every node nest in its span, and the span is within the outer one. -/
theorem NestsIn.node : ∀ {outer : Span} {value : Value}, value.NestsIn outer →
    .node kind span children ∈ value.parts → span.IsInside outer ∧ AllNestIn span children
  | _, .absent, _, hnode | _, .str _, _, hnode | _, .int _, _, hnode => by
    cases List.mem_singleton.1 hnode
  | _, .list _, h, hnode | _, .tuple _, h, hnode => by
    rcases List.mem_cons.1 hnode with hnode | hnode
    · cases hnode
    · exact AllNestIn.node h hnode
  | _, .node _ _ _, ⟨hspan, hchildren⟩, hnode => by
    rcases List.mem_cons.1 hnode with hnode | hnode
    · cases hnode
      exact ⟨hspan, hchildren⟩
    · obtain ⟨hinside, hnested⟩ := AllNestIn.node hchildren hnode
      exact ⟨hinside.trans hspan, hnested⟩

theorem AllNestIn.node : ∀ {outer : Span} {values : List Value}, AllNestIn outer values →
    .node kind span children ∈ partsOfAll values → span.IsInside outer ∧ AllNestIn span children
  | _, [], _, hnode => by cases hnode
  | _, _ :: _, ⟨hvalue, hvalues⟩, hnode => by
    rcases List.mem_append.1 hnode with hnode | hnode
    · exact hvalue.node hnode
    · exact hvalues.node hnode

end

end Value

/-! ### Mappers -/

namespace MapperExpr

variable {captures : List Capture} {input : List Char} {span : Span}

mutual

/-- Mappers give values that nest in the span of the alternative when the captures do. -/
theorem nestsIn_evaluate (hcaptures : ∀ capture ∈ captures, capture.value.NestsIn span)
    (hspan : span.start ≤ span.stop) :
    ∀ expr : MapperExpr, (expr.evaluate captures input span).NestsIn span
  | .capture index => by
    rw [evaluate]
    rcases hcapture : captures[index]? with - | capture
    · trivial
    · exact hcaptures capture (List.mem_of_getElem? hcapture)
  | .startOf index | .endOf index => by
    rw [evaluate]
    rcases captures[index]? with - | capture
    · trivial
    · trivial
  | .text | .start | .stop | .str _ => trivial
  | .list items => Value.allNestIn_iff.2 (nestsIn_evaluateAll hcaptures hspan items)
  | .node _ arguments =>
    ⟨.self hspan, Value.allNestIn_iff.2 (nestsIn_evaluateAll hcaptures hspan arguments)⟩
  | .concat terms =>
    Value.nestsIn_hereditary.concatAll (nestsIn_evaluateAll hcaptures hspan terms)

theorem nestsIn_evaluateAll (hcaptures : ∀ capture ∈ captures, capture.value.NestsIn span)
    (hspan : span.start ≤ span.stop) :
    ∀ exprs : List MapperExpr,
      ∀ value ∈ evaluateAll captures input span exprs, value.NestsIn span
  | [], value, hvalue => by cases hvalue
  | expr :: exprs, value, hvalue => by
    rcases List.mem_cons.1 hvalue with rfl | hvalue
    · exact nestsIn_evaluate hcaptures hspan expr
    · exact nestsIn_evaluateAll hcaptures hspan exprs value hvalue

end

end MapperExpr

end Peg
