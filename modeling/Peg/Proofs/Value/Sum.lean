/-
Peg/Proofs/Value/Sum.lean

Sums of values.

Two lists are joined, and anything else is joined as text.  The text of a sum
is the sum of the texts in either case (`text_concat`), so it does not matter
whether lists are joined first and then turned into text, or the other way
round: sums are associative (`concat_assoc`).

The sum of several values goes from left to right and starts with the first of
them.  A part of them that is not empty may be summed up before
(`concatAll_append_concatAll`).  An empty part may not: its sum is the absent
value, which is no list and turns lists beside it into text.
-/
import Peg.Value

namespace Peg

namespace Value

/-! ### Texts -/

theorem textOfAll_append (left right : List Value) :
    textOfAll (left ++ right) = textOfAll left ++ textOfAll right := by
  induction left with
  | nil => simp [textOfAll]
  | cons value left ih => rw [List.cons_append, textOfAll, textOfAll, ih, String.append_assoc]

/-- The text of a sum, whether it is a list or a text. -/
theorem text_concat (left right : Value) :
    (left.concat right).text = left.text ++ right.text := by
  cases left with
  | list items =>
    cases right with
    | list items' =>
      show textOfAll (items ++ items') = textOfAll items ++ textOfAll items'
      apply textOfAll_append
    | _ => rfl
  | _ => rfl

/-! ### Two sums -/

/-- Whether a value is a list, and so is joined with another one as a list. -/
def isList : Value → Bool
  | .list _ => true
  | _ => false

theorem isList_concat (left right : Value) :
    (left.concat right).isList = (left.isList && right.isList) := by
  cases left with
  | list items => cases right <;> rfl
  | _ => rfl

/-- A sum is a text unless both of its sides are lists. -/
theorem concat_of_isList_eq_false {left right : Value}
    (h : (left.isList && right.isList) = false) :
    left.concat right = .str (left.text ++ right.text) := by
  cases left with
  | list items =>
    cases right with
    | list items' => cases h
    | _ => rfl
  | _ => rfl

theorem concat_assoc (left middle right : Value) :
    (left.concat middle).concat right = left.concat (middle.concat right) := by
  by_cases hlists : (left.isList && middle.isList && right.isList) = true
  · cases left with
    | list items =>
      cases middle with
      | list items' =>
        cases right with
        | list items'' =>
          show Value.list (items ++ items' ++ items'') = .list (items ++ (items' ++ items''))
          rw [List.append_assoc]
        | _ => cases hlists
      | _ => cases hlists
    | _ => cases hlists
  · -- something is no list, so either grouping ends with a text, and that is the whole text
    have hleft : ((left.concat middle).isList && right.isList) = false := by
      rw [isList_concat]
      simpa using hlists
    have hright : (left.isList && (middle.concat right).isList) = false := by
      rw [isList_concat, ← Bool.and_assoc]
      simpa using hlists
    rw [concat_of_isList_eq_false hleft, concat_of_isList_eq_false hright, text_concat,
      text_concat, String.append_assoc]

instance : Std.Associative concat := ⟨concat_assoc⟩

/-! ### Sums of several values -/

variable {inner after : List Value}

/-- Values after the first ones are added to the sum of these. -/
theorem concatAll_append (hne : inner ≠ []) (after : List Value) :
    concatAll (inner ++ after) = after.foldl concat (concatAll inner) := by
  cases inner with
  | nil => exact absurd rfl hne
  | cons value values => exact List.foldl_append

/-- The first value is added to the sum of the others. -/
theorem concatAll_cons (value : Value) (hne : after ≠ []) :
    concatAll (value :: after) = value.concat (concatAll after) := by
  cases after with
  | nil => exact absurd rfl hne
  | cons next after =>
    show after.foldl concat (value.concat next) = value.concat (after.foldl concat next)
    exact List.foldl_assoc

/-- A part of the values may be summed up before the whole, unless it is empty. -/
theorem concatAll_append_concatAll (before : List Value) (hne : inner ≠ []) (after : List Value) :
    concatAll (before ++ concatAll inner :: after) = concatAll (before ++ (inner ++ after)) := by
  induction before with
  | nil =>
    rw [List.nil_append, List.nil_append, concatAll_append hne]
    rfl
  | cons value before ih =>
    have hgrouped : before ++ concatAll inner :: after ≠ [] := by simp
    have hopen : before ++ (inner ++ after) ≠ [] := by simp [hne]
    rw [List.cons_append, List.cons_append, concatAll_cons value hgrouped,
      concatAll_cons value hopen, ih]

end Value

end Peg
