/-
Peg/Proofs/Run/Retry.lean

The rule of commitment, once.

A choice, an optional match and a repetition all do the same with a failure:
where the attempt started they go on with something else, and further on they
give up.  `Run.retry` is that rule, and the three combinators are equal to it
with what they go on with.  What is known of `retry` is therefore known of all
of them.

The laws of going on after a success are here as well.
-/
import Peg.Combinator

namespace Peg

variable {α β γ : Type}

namespace Run

/-- A run that goes on after a success, and after a failure at the start. -/
def retry (run : Run α) (start : Nat) (onSuccess : α → Nat → Run β) (refused : Run β) : Run β :=
  run.resume onSuccess fun failure =>
    if failure.position = start then refused else .done (.failure failure)

@[simp] theorem after_done (events : List Event) (outcome : Outcome α) :
    (done outcome).after events = some (events, outcome) := by
  simp [after, done]

theorem after_after (first second : List Event) (run : Run α) :
    (run.after second).after first = run.after (first ++ second) := by
  rcases run with - | ⟨events, outcome⟩
  · rfl
  · simp [after]

theorem after_andThen (events : List Event) (run : Run α) (next : α → Nat → Run β) :
    (run.after events).andThen next = (run.andThen next).after events := by
  rcases run with - | ⟨later, ⟨value, stop⟩ | failure | fault⟩
  · rfl
  · exact (after_after ..).symm
  · rfl
  · rfl

theorem done_andThen (value : α) (stop : Nat) (next : α → Nat → Run β) :
    (done (.success value stop)).andThen next = next value stop := by
  show (next value stop).after [] = next value stop
  rcases next value stop with - | ⟨events, outcome⟩ <;> rfl

/-- To go on twice is to go on with what goes on. -/
theorem andThen_assoc (run : Run α) (next : α → Nat → Run β) (last : β → Nat → Run γ) :
    (run.andThen next).andThen last =
      run.andThen fun value stop => (next value stop).andThen last := by
  rcases run with - | ⟨events, ⟨value, stop⟩ | failure | fault⟩
  · rfl
  · exact after_andThen ..
  · rfl
  · rfl

/-- To go on with nothing but another value is to map it. -/
theorem andThen_done (run : Run α) (f : α → β) :
    (run.andThen fun value stop => done (.success (f value) stop)) = run.mapValue f := by
  rcases run with - | ⟨events, ⟨value, stop⟩ | failure | fault⟩
  · rfl
  · exact after_done ..
  · rfl
  · rfl

end Run

/-! ### Combinators -/

namespace Combinator

variable {input : List Char} {start : Nat}

theorem choice_eq_retry (first next : Matching α) (others : List (Matching α)) :
    choice (first :: next :: others) input start =
      (first input start).retry start (fun value stop => .done (.success value stop))
        (choice (next :: others) input start) := by
  rw [choice, Run.retry]
  rcases first input start with - | ⟨events, ⟨value, stop⟩ | failure | fault⟩
  · rfl
  · simp [Run.resume]
  · dsimp only [Run.resume]
    split <;> simp
  · rfl

theorem optional_eq_retry (body : Matching α) :
    optional body input start =
      (body input start).retry start (fun value stop => .done (.success (some value) stop))
        (.done (.success none start)) := by
  rw [optional, Run.retry]
  rcases body input start with - | ⟨events, ⟨value, stop⟩ | failure | fault⟩
  · rfl
  · simp [Run.resume, Run.mapValue, Run.mapOutcome, Outcome.map]
  · dsimp only [Run.resume]
    split <;> simp
  · rfl

theorem many_eq_retry (fuel : Nat) (body : Matching α) :
    many (fuel + 1) body input start =
      (body input start).retry start
        (fun value stop =>
          if stop = start then some ([.stalled start], .success [] start)
          else (many fuel body input stop).mapValue (value :: ·))
        (.done (.success [] start)) := by
  rw [many, Run.retry]
  rcases body input start with - | ⟨events, ⟨value, stop⟩ | failure | fault⟩
  · rfl
  · dsimp only [Run.resume]
    split <;> rfl
  · dsimp only [Run.resume]
    split <;> simp
  · rfl

end Combinator

end Peg
