/-
Peg/Proofs/Grammar/Placed.lean

Where the parts of a grammar stand in its source.

Spans stand in order when none is empty and each begins where the one before
it ended or later; they tile a range when there are no gaps either.  The
blocks and rules of a grammar tile its source, the items of an alternative
tile their part of it, and alternatives and members of groups stand in order,
with bars and blanks between them (`Placed`).

Blocks and rules are kept in two lists.  A declaration that is read after all
others goes to the end of its list, and so it does when the lists are merged.
-/
import Mathlib.Order.Nat
import Mathlib.Tactic.Common
import Peg.Grammar.Basic

namespace Peg

/-! ### Spans in a row -/

/-- Spans that are not empty and follow each other without gaps from one offset to another. -/
inductive Tiles : Nat → Nat → List Span → Prop where
  | nil (start : Nat) : Tiles start start []
  | cons {start middle stop : Nat} {spans : List Span} (hlt : start < middle)
      (h : Tiles middle stop spans) : Tiles start stop (⟨start, middle⟩ :: spans)

/-- Spans that are not empty and follow each other between two offsets. -/
inductive InOrder : Nat → Nat → List Span → Prop where
  | nil {start stop : Nat} (hle : start ≤ stop) : InOrder start stop []
  | cons {start stop : Nat} {span : Span} {spans : List Span} (hle : start ≤ span.start)
      (hlt : span.start < span.stop) (h : InOrder span.stop stop spans) :
      InOrder start stop (span :: spans)

variable {start middle stop start' stop' : Nat} {span : Span} {spans : List Span}

/-- Another span at the end, which begins where the last one ends. -/
theorem Tiles.concat (h : Tiles start middle spans) (hlt : middle < stop) :
    Tiles start stop (spans ++ [⟨middle, stop⟩]) := by
  induction h with
  | nil start => exact .cons hlt (.nil stop)
  | cons hlt' h ih => exact .cons hlt' (ih hlt)

namespace InOrder

/-- Spans in order go from the start to the stop. -/
theorem le (h : InOrder start stop spans) : start ≤ stop := by
  induction h with
  | nil hle => exact hle
  | cons hle hlt h ih => exact (hle.trans hlt.le).trans ih

/-- There may be more room around them. -/
theorem widen (h : InOrder start stop spans) (hstart : start' ≤ start) (hstop : stop ≤ stop') :
    InOrder start' stop' spans := by
  induction h generalizing start' with
  | nil hle => exact .nil ((hstart.trans hle).trans hstop)
  | cons hle hlt h ih => exact .cons (hstart.trans hle) hlt (ih (Nat.le_refl _) hstop)

/-- Another span behind them. -/
theorem concat (h : InOrder start middle spans) (hlt : middle < stop) :
    InOrder start stop (spans ++ [⟨middle, stop⟩]) := by
  induction h with
  | nil hle => exact .cons hle hlt (.nil (Nat.le_refl stop))
  | cons hle hlt' h ih => exact .cons hle hlt' (ih hlt)

/-- All of them begin before the stop. -/
theorem start_lt (h : InOrder start stop spans) : ∀ span ∈ spans, span.start < stop := by
  induction h with
  | nil hle => nofun
  | cons hle hlt h ih => exact List.forall_mem_cons.2 ⟨hlt.trans_le h.le, ih⟩

end InOrder

/-- A span inside another one. -/
structure Span.Inside (inner outer : Span) : Prop where
  start : outer.start ≤ inner.start
  inOrder : inner.start ≤ inner.stop
  stop : inner.stop ≤ outer.stop

/-! ### Merged lists -/

section Merge

variable {α : Type} {le : α → α → Bool}

/-- What comes after all of the other list is merged last. -/
theorem merge_concat_left {x : α} (xs : List α) {ys : List α} (h : ∀ y ∈ ys, le x y = false) :
    (xs ++ [x]).merge ys le = xs.merge ys le ++ [x] := by
  induction xs generalizing ys with
  | nil =>
    rw [List.nil_append, List.nil_merge]
    induction ys with
    | nil => rw [List.merge_right, List.nil_append]
    | cons y ys ih =>
      obtain ⟨hy, hys⟩ := List.forall_mem_cons.1 h
      rw [List.cons_merge_cons, hy, if_neg Bool.false_ne_true, ih hys, List.cons_append]
  | cons a xs ih =>
    rw [List.cons_append]
    -- both lists get shorter in turn
    induction ys with
    | nil => rw [List.merge_right, List.merge_right, List.cons_append]
    | cons y ys ihys =>
      rw [List.cons_merge_cons, List.cons_merge_cons]
      split
      · rw [ih h, List.cons_append]
      · rw [ihys (List.forall_mem_cons.1 h).2, List.cons_append]

/-- The same for the list on the right, which gives way to equal elements. -/
theorem merge_concat_right {y : α} {xs : List α} (ys : List α) (h : ∀ x ∈ xs, le x y = true) :
    xs.merge (ys ++ [y]) le = xs.merge ys le ++ [y] := by
  induction xs generalizing ys with
  | nil => rw [List.nil_merge, List.nil_merge]
  | cons x xs ih =>
    obtain ⟨hx, hxs⟩ := List.forall_mem_cons.1 h
    induction ys with
    | nil =>
      have hnil := ih [] hxs
      rw [List.merge_right, List.nil_append] at hnil
      rw [List.merge_right, List.nil_append, List.cons_merge_cons, hx, if_pos rfl, hnil,
        List.cons_append]
    | cons y' ys ihys =>
      rw [List.cons_append, List.cons_merge_cons, List.cons_merge_cons]
      split
      · have hothers := ih (y' :: ys) hxs
        rw [List.cons_append] at hothers
        rw [hothers, List.cons_append]
      · rw [ihys, List.cons_append]

end Merge

/-! ### Grammars -/

mutual

/-- The parts of a pattern stand inside it, those of a group in order. -/
def Pattern.Placed : Pattern → Prop
  | .apply _ inner span => inner.span.Inside span ∧ inner.Placed
  | .group items span =>
    InOrder span.start span.stop (items.map fun item => item.item.span) ∧ AllPlaced items
  | _ => True

/-- The pattern of an item begins where the item does. -/
def GroupItem.Placed : GroupItem → Prop
  | .mk _ pattern _ span =>
    pattern.span.start = span.start ∧ pattern.span.Inside span ∧ pattern.Placed

/-- The same for several items. -/
def AllPlaced : List GroupItem → Prop
  | [] => True
  | item :: items => item.Placed ∧ AllPlaced items

end

/-- The recursion over the items of a group, as one over a list. -/
theorem allPlaced_iff {items : List GroupItem} :
    AllPlaced items ↔ ∀ item ∈ items, item.Placed := by
  induction items with
  | nil => simp [AllPlaced]
  | cons item items ih => rw [AllPlaced, ih, List.forall_mem_cons]

def Item.Placed (item : Item) : Prop :=
  (GroupItem.ofItem false item).Placed

/-- The items tile an alternative from where it begins.  If there is a mapper, it begins where they
end and ends where the alternative does. -/
structure Alternative.Placed (alternative : Alternative) : Prop where
  nonempty : alternative.items ≠ []
  tiles : ∃ middle, Tiles alternative.span.start middle (alternative.items.map (·.span)) ∧
    middle ≤ alternative.span.stop ∧
    ∀ mapper ∈ alternative.mapper, mapper.span = ⟨middle, alternative.span.stop⟩
  items : ∀ item ∈ alternative.items, item.Placed

/-- The alternatives of a rule stand in order inside it. -/
structure Rule.Placed (rule : Rule) : Prop where
  inOrder : InOrder rule.span.start rule.span.stop (rule.alternatives.map (·.span))
  alternatives : ∀ alternative ∈ rule.alternatives, alternative.Placed

namespace Grammar

/-- The spans of the blocks and rules of a grammar, merged in the order of their starts. -/
def declarationSpans (grammar : Grammar) : List Span :=
  (grammar.pastas.map (·.span)).merge (grammar.rules.map (·.span))
    fun left right => left.start ≤ right.start

/-- The blocks and rules tile a range, and each kind stands in order. -/
structure Placed (start stop : Nat) (grammar : Grammar) : Prop where
  tiles : Tiles start stop grammar.declarationSpans
  pastas : InOrder start stop (grammar.pastas.map (·.span))
  rules : InOrder start stop (grammar.rules.map (·.span))
  placed : ∀ rule ∈ grammar.rules, rule.Placed

/-- An empty grammar takes no room. -/
theorem placed_nil (start : Nat) : Placed start start {} := by
  refine ⟨?_, .nil (Nat.le_refl start), .nil (Nat.le_refl start), nofun⟩
  rw [declarationSpans, List.map_nil, List.nil_merge]
  exact .nil start

variable {grammar : Grammar}

namespace Placed

/-- A pasta block behind a grammar, where this ends. -/
theorem addPasta (h : grammar.Placed start middle) {pasta : Pasta}
    (hspan : pasta.span = ⟨middle, stop⟩) (hlt : middle < stop) :
    ({ grammar with pastas := grammar.pastas ++ [pasta] } : Grammar).Placed start stop := by
  -- all rules begin before the block, so it comes last in the merged list
  have hle : ∀ rule ∈ grammar.rules.map (·.span), decide (middle ≤ rule.start) = false :=
    fun rule hrule => decide_eq_false (Nat.not_le.2 (h.rules.start_lt rule hrule))
  refine ⟨?_, ?_, h.rules.widen (Nat.le_refl start) hlt.le, h.placed⟩
  · rw [declarationSpans, List.map_append, List.map_singleton, hspan, merge_concat_left _ hle]
    exact h.tiles.concat hlt
  · rw [List.map_append, List.map_singleton, hspan]
    exact h.pastas.concat hlt

/-- A rule behind a grammar, where this ends. -/
theorem addRule (h : grammar.Placed start middle) {rule : Rule} (hspan : rule.span = ⟨middle, stop⟩)
    (hlt : middle < stop) (hrule : rule.Placed) :
    ({ grammar with rules := grammar.rules ++ [rule] } : Grammar).Placed start stop := by
  have hle : ∀ pasta ∈ grammar.pastas.map (·.span), decide (pasta.start ≤ middle) = true :=
    fun pasta hpasta => decide_eq_true (h.pastas.start_lt pasta hpasta).le
  refine ⟨?_, h.pastas.widen (Nat.le_refl start) hlt.le, ?_, ?_⟩
  · rw [declarationSpans, List.map_append, List.map_singleton, hspan, merge_concat_right _ hle]
    exact h.tiles.concat hlt
  · rw [List.map_append, List.map_singleton, hspan]
    exact h.rules.concat hlt
  · exact List.forall_mem_append.2 ⟨h.placed, List.forall_mem_singleton.2 hrule⟩

end Placed

end Grammar

end Peg
