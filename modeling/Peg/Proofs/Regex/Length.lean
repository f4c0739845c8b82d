/-
Peg/Proofs/Regex/Length.lean

The length of a match is that of a beginning of the text.
-/
import Peg.Proofs.Text.Offset
import Peg.Regex.Basic

namespace Peg.Regex

open Text

theorem bestLength?_eq_some {threads : List Regex} {before : Option Char} {text : List Char}
    {length : Nat} (h : bestLength? threads before text = some length) :
    ∃ passed rest, text = passed ++ rest ∧ length = size passed := by
  induction text generalizing threads before length with
  | nil =>
    rw [bestLength?] at h
    split at h
    · exact ⟨[], [], rfl, (Option.some.inj h).symm⟩
    · cases h
  | cons c cs ih =>
    rw [bestLength?] at h
    split at h
    · -- the best thread reads the first character
      rename_i further hfurther
      split at hfurther
      · cases hfurther
      · obtain ⟨passed, rest, rfl, rfl⟩ := ih hfurther
        exact ⟨c :: passed, rest, rfl, (Option.some.inj h).symm⟩
    · split at h
      · exact ⟨[], c :: cs, rfl, (Option.some.inj h).symm⟩
      · cases h

/-- A match is a beginning of the text. -/
theorem matchLength?_eq_some {expression : Regex} {text : List Char} {length : Nat}
    (h : expression.matchLength? text = some length) :
    ∃ passed rest, text = passed ++ rest ∧ length = size passed :=
  bestLength?_eq_some h

end Peg.Regex
