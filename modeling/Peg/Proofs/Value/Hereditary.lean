/-
Peg/Proofs/Value/Hereditary.lean

Properties of values that are properties of what is inside.

Most of what is known of a value is known of its parts: a list or a tuple has
the property when its items do, and a text has it in any case.  Values are put
together by a sequence, by the choice of the important members of a group and
by sums, and a property of this kind passes through all three.
-/
import Peg.Value

namespace Peg

/-- The elements that are kept are among all of them. -/
theorem mem_of_mem_project {α : Type} {values : List α} {important : List Nat} {value : α}
    (h : value ∈ project values important) : value ∈ values := by
  unfold project at h
  split at h
  · exact h
  · obtain ⟨entry, hentry, rfl⟩ := List.mem_map.1 h
    exact List.fst_mem_of_mem_zipIdx (List.mem_filter.1 hentry).1

namespace Value

/-- A property that texts have, and that lists and tuples have when their items do. -/
structure Hereditary (p : Value → Prop) : Prop where
  absent : p .absent
  str : ∀ text, p (.str text)
  list : ∀ items, p (.list items) ↔ ∀ item ∈ items, p item
  tuple : ∀ items, p (.tuple items) ↔ ∀ item ∈ items, p item

namespace Hereditary

variable {p : Value → Prop} {values : List Value}

theorem ofItems (hp : Hereditary p) (h : ∀ value ∈ values, p value) : p (ofItems values) := by
  rcases values with - | ⟨value, - | ⟨next, values⟩⟩
  · exact (hp.tuple []).2 h
  · exact h value (List.mem_singleton_self _)
  · exact (hp.tuple _).2 h

/-- A sum keeps the items of two lists, and nothing but the text of anything else. -/
theorem concat (hp : Hereditary p) {left right : Value} (hleft : p left) (hright : p right) :
    p (left.concat right) := by
  cases left with
  | list items =>
    cases right with
    | list items' =>
      refine (hp.list _).2 fun value hvalue => ?_
      rcases List.mem_append.1 hvalue with hvalue | hvalue
      · exact (hp.list _).1 hleft value hvalue
      · exact (hp.list _).1 hright value hvalue
    | _ => exact hp.str _
  | _ => exact hp.str _

theorem concatAll (hp : Hereditary p) (h : ∀ value ∈ values, p value) : p (concatAll values) := by
  cases values with
  | nil => exact hp.absent
  | cons value values =>
    obtain ⟨hvalue, hvalues⟩ := List.forall_mem_cons.1 h
    rw [Value.concatAll]
    clear h
    induction values generalizing value with
    | nil => exact hvalue
    | cons next values ih =>
      obtain ⟨hnext, hvalues⟩ := List.forall_mem_cons.1 hvalues
      exact ih _ (hp.concat hvalue hnext) hvalues

theorem project (h : ∀ value ∈ values, p value) (important : List Nat) :
    ∀ value ∈ project values important, p value :=
  fun value hvalue => h value (mem_of_mem_project hvalue)

end Hereditary

end Value

end Peg
