/-
Peg/Proofs/Run/Below.lean

Runs with more fuel.

A run is below another when it was cut short or is the same run.  Every
combinator is monotone for this order: parts with more fuel make a whole with
more fuel, and nothing else about the whole changes.  Repetitions take fuel
of their own and are monotone in that as well.

The order is what makes the fuel of the interpreter a matter of resources:
two runs of the same matcher that both end are equal.
-/
import Mathlib.Data.List.Forall2
import Peg.Combinator

namespace Peg

variable {α β : Type}

/-! ### The order -/

/-- A run is cut short, or is the other one. -/
def Run.Below (run other : Run α) : Prop :=
  run = none ∨ other = run

/-- Below at every offset of every text. -/
def Matching.Below (matching other : Matching α) : Prop :=
  ∀ input start, Run.Below (matching input start) (other input start)

namespace Run.Below

/-- Every run is below itself. -/
theorem refl (run : Run α) : Below run run :=
  .inr rfl

theorem cutShort (run : Run α) : Below none run :=
  .inl rfl

/-- Fuel may be added in several steps. -/
theorem trans {first second third : Run α} (h : Below first second) (h' : Below second third) :
    Below first third := by
  rcases h with h | rfl
  · exact .inl h
  · exact h'

/-- A run that has ended is not changed by more fuel. -/
theorem eq_some {run other : Run α} {answer : List Event × Outcome α} (h : Below run other)
    (ended : run = some answer) : other = some answer := by
  rcases h with h | rfl
  · rw [h] at ended
    cases ended
  · exact ended

/-! ### Runs put together -/

variable {run other : Run α}

/-- Events that come before both runs change nothing. -/
theorem after (events : List Event) (h : Below run other) :
    Below (run.after events) (other.after events) := by
  rcases h with rfl | rfl
  · exact cutShort _
  · exact refl _

theorem mapOutcome (f : Outcome α → Outcome β) (h : Below run other) :
    Below (run.mapOutcome f) (other.mapOutcome f) := by
  rcases h with rfl | rfl
  · exact cutShort _
  · exact refl _

theorem mapValue (f : α → β) (h : Below run other) : Below (run.mapValue f) (other.mapValue f) :=
  h.mapOutcome _

/-- What follows may have more fuel as well. -/
theorem andThen {next next' : α → Nat → Run β} (h : Below run other)
    (hnext : ∀ value stop, Below (next value stop) (next' value stop)) :
    Below (run.andThen next) (other.andThen next') := by
  rcases h with rfl | rfl
  · exact cutShort _
  · rcases other with - | ⟨events, ⟨value, stop⟩ | failure | fault⟩
    · exact cutShort _
    · exact (hnext value stop).after events
    · exact refl _
    · exact refl _

/-- So may what follows a failure. -/
theorem resume {onSuccess onSuccess' : α → Nat → Run β} {onFailure onFailure' : Failure → Run β}
    (h : Below run other)
    (hsuccess : ∀ value stop, Below (onSuccess value stop) (onSuccess' value stop))
    (hfailure : ∀ failure, Below (onFailure failure) (onFailure' failure)) :
    Below (run.resume onSuccess onFailure) (other.resume onSuccess' onFailure') := by
  rcases h with rfl | rfl
  · exact cutShort _
  · rcases other with - | ⟨events, ⟨value, stop⟩ | failure | fault⟩
    · exact cutShort _
    · exact (hsuccess value stop).after events
    · exact (hfailure failure).after _
    · exact refl _

end Run.Below

/-! ### Combinators -/

namespace Combinator

variable {body body' : Matching α}

/-- A sequence has more fuel if its items have it. -/
theorem sequence_below {items items' : List (List α → Matching α)}
    (h : List.Forall₂ (fun item item' => ∀ previous, Matching.Below (item previous) (item' previous))
      items items')
    (previous : List α) : Matching.Below (sequence items previous) (sequence items' previous) := by
  intro input start
  induction h generalizing previous start with
  | nil => exact .refl _
  | cons hitem _ ih => exact (hitem previous input start).andThen fun value stop => ih _ stop

/-- A choice has more fuel if its alternatives have it. -/
theorem choice_below {alternatives alternatives' : List (Matching α)}
    (h : List.Forall₂ Matching.Below alternatives alternatives') :
    Matching.Below (choice alternatives) (choice alternatives') := by
  intro input start
  induction h with
  | nil => exact .refl _
  | cons hfirst hothers ih =>
    cases hothers with
    | nil => exact hfirst input start
    | cons hnext hothers =>
      rcases hfirst input start with hnone | hsame
      · simp only [choice, hnone]
        exact .cutShort _
      · simp only [choice, hsame]
        split
        · split
          · exact ih.after _
          · exact .refl _
        · exact .refl _

theorem optional_below (h : Matching.Below body body') :
    Matching.Below (optional body) (optional body') := by
  intro input start
  rcases h input start with hnone | hsame
  · simp only [optional, hnone]
    exact .cutShort _
  · simp only [optional, hsame]
    exact .refl _

/-- A repetition is monotone in the fuel of its body and in its own. -/
theorem many_below {fuel fuel' : Nat} (hfuel : fuel ≤ fuel') (h : Matching.Below body body') :
    Matching.Below (many fuel body) (many fuel' body') := by
  intro input start
  induction fuel generalizing fuel' start with
  | zero => exact .cutShort _
  | succ fuel ih =>
    obtain ⟨fuel', rfl⟩ := Nat.exists_eq_add_one_of_ne_zero (by omega : fuel' ≠ 0)
    rcases h input start with hnone | hsame
    · simp only [many, hnone]
      exact .cutShort _
    · simp only [many, hsame]
      rcases body input start with - | ⟨events, ⟨value, stop⟩ | failure | fault⟩
      · exact .cutShort _
      · dsimp only
        split
        · exact .refl _
        · exact ((ih (by omega) stop).mapValue _).after _
      · exact .refl _
      · exact .refl _

theorem many1_below {fuel fuel' : Nat} (hfuel : fuel ≤ fuel') (h : Matching.Below body body') :
    Matching.Below (many1 fuel body) (many1 fuel' body') :=
  fun input start => (h input start).andThen fun _ stop =>
    (many_below hfuel h input stop).mapValue _

theorem negative_below (h : Matching.Below body body') :
    Matching.Below (negative body) (negative body') :=
  fun input start => (h input start).resume (fun _ _ => .refl _) (fun _ => .refl _)

theorem look_below (h : Matching.Below body body') : Matching.Below (look body) (look body') :=
  fun input start => (h input start).resume (fun _ _ => .refl _) (fun _ => .refl _)

theorem attempt_below (h : Matching.Below body body') :
    Matching.Below (attempt body) (attempt body') :=
  fun input start => (h input start).mapOutcome _

theorem backtrack_below (h : Matching.Below body body') :
    Matching.Below (backtrack body) (backtrack body') := by
  intro input start
  unfold backtrack
  split
  · exact .refl _
  · exact (h _ 0).resume (fun _ _ => .refl _) (fun _ => .refl _)

end Combinator

end Peg
