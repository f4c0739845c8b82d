/-
Peg/Proofs/Regex/Empty.lean

Expressions that match nothing at the beginning of a text.

Whether an expression matches the empty beginning of a text can depend on the
character that follows, but only through assertions.  An expression without
assertions about what follows starts in the same ways before any character
(`heads_next`), so if it matches the empty beginning of some text, it matches
the empty text.
-/
import Mathlib.Tactic.Common
import Peg.Regex.Basic

namespace Peg.Regex

/-- Expressions whose assertions do not depend on the next character. -/
def looksBack : Regex → Bool
  | .empty | .chars _ => true
  | .assertion condition => condition == .textStart
  | .seq first second | .alt first second => first.looksBack && second.looksBack
  | .plus _ body | .loop _ body => body.looksBack

theorem heads_next {before : Option Char} (next next' : Option Char) :
    ∀ expression : Regex, expression.looksBack = true →
      heads ⟨before, next⟩ expression = heads ⟨before, next'⟩ expression
  | .empty, _ | .chars _, _ => rfl
  | .assertion condition, h => by
    rw [looksBack, beq_iff_eq] at h
    rw [h]
    rfl
  | .seq first second, h => by
    rw [looksBack, Bool.and_eq_true] at h
    rw [heads, heads, heads_next next next' first h.1,
      heads_next next next' second h.2]
  | .alt first second, h => by
    rw [looksBack, Bool.and_eq_true] at h
    rw [heads, heads, heads_next next next' first h.1,
      heads_next next next' second h.2]
  | .plus greedy body, h => by
    rw [heads, heads, heads_next next next' body h]
  | .loop greedy body, h => by
    rw [heads, heads, heads_next next next' body h]

/-- Something is read, or the best thread is finished from the start. -/
theorem finish_of_bestLength? {threads : List Regex} {before : Option Char} {text : List Char}
    (h : bestLength? threads before text = some 0) :
    (headsOfAll ⟨before, text.head?⟩ threads).contains .finish = true := by
  cases text with
  | nil =>
    rw [bestLength?] at h
    split at h
    · assumption
    · cases h
  | cons c cs =>
    rw [bestLength?] at h
    split at h
    · have := c.utf8Size_pos
      rw [Option.some.injEq] at h
      omega
    · split at h
      · assumption
      · cases h

/-- Without looking ahead, the empty beginning of a text is like the empty text. -/
theorem matchesEmpty_of_looksBack {expression : Regex} (hback : expression.looksBack = true)
    {text : List Char} (h : expression.matchLength? text = some 0) :
    expression.matchesEmpty = true := by
  have hfinish := finish_of_bestLength? h
  have hsame : headsOfAll ⟨none, text.head?⟩ [expression] = headsOfAll ⟨none, none⟩ [expression] := by
    simp only [headsOfAll, List.flatMap_cons, List.flatMap_nil, List.append_nil]
    rw [heads_next text.head? none expression hback]
  rw [hsame] at hfinish
  rw [matchesEmpty, matchLength?, bestLength?, if_pos hfinish]
  rfl

end Peg.Regex
