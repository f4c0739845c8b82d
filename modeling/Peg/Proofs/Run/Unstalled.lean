/-
Peg/Proofs/Run/Unstalled.lean

Runs in which no repetition was cut short.

A repetition stalls when an attempt succeeds without advancing, and records it.
`Run.Unstalled` says that nothing of this kind was recorded.  There is one
lemma for each way to put runs together, the repetitions apart.

`manyOr` is a repetition that does something else instead of stalling.  It is
the usual one where no attempt stays where it is (`manyOr_eq`), and it records
no stall unless what it does instead does so (`manyOr_unstalled`).
-/
import Peg.Proofs.Run.Retry

namespace Peg

variable {α β : Type}

/-! ### Runs -/

/-- No repetition was cut short in a run. -/
def Run.Unstalled (run : Run α) : Prop :=
  match run with
  | none => True
  | some (events, _) => ∀ offset, Event.stalled offset ∉ events

/-- A matching that never cuts a repetition short. -/
def Matching.Unstalled (matching : Matching α) : Prop :=
  ∀ input start, (matching input start).Unstalled

namespace Run.Unstalled

variable {run : Run α} {events : List Event}

theorem done (outcome : Outcome α) : (Run.done outcome).Unstalled :=
  fun _ => List.not_mem_nil

theorem after (hevents : ∀ offset, Event.stalled offset ∉ events) (h : run.Unstalled) :
    (run.after events).Unstalled := by
  rcases run with - | ⟨later, outcome⟩
  · trivial
  · intro offset hmem
    exact (List.mem_append.1 hmem).elim (hevents offset) (h offset)

theorem mapOutcome (f : Outcome α → Outcome β) (h : run.Unstalled) : (run.mapOutcome f).Unstalled := by
  rcases run with - | ⟨events, outcome⟩
  · trivial
  · exact h

theorem mapValue (f : α → β) (h : run.Unstalled) : (run.mapValue f).Unstalled :=
  h.mapOutcome _

theorem andThen {next : α → Nat → Run β} (h : run.Unstalled)
    (hnext : ∀ value stop, (next value stop).Unstalled) : (run.andThen next).Unstalled := by
  rcases run with - | ⟨events, ⟨value, stop⟩ | failure | fault⟩
  · trivial
  · exact after h (hnext value stop)
  · exact h
  · exact h

/-- No stall is recorded if none is before a failure or after it. -/
theorem resume {onSuccess : α → Nat → Run β} {onFailure : Failure → Run β} (h : run.Unstalled)
    (hsuccess : ∀ value stop, (onSuccess value stop).Unstalled)
    (hfailure : ∀ failure, (onFailure failure).Unstalled) :
    (run.resume onSuccess onFailure).Unstalled := by
  rcases run with - | ⟨events, ⟨value, stop⟩ | failure | fault⟩
  · trivial
  · exact after h (hsuccess value stop)
  · exact after h (hfailure failure)
  · exact h

theorem retry {start : Nat} {onSuccess : α → Nat → Run β} {refused : Run β} (h : run.Unstalled)
    (hsuccess : ∀ value stop, (onSuccess value stop).Unstalled) (hrefused : refused.Unstalled) :
    (run.retry start onSuccess refused).Unstalled := by
  refine h.resume hsuccess fun failure => ?_
  split
  · exact hrefused
  · exact done _

theorem primitive (outcome : Outcome α) : (Run.primitive outcome).Unstalled := by
  rcases outcome with ⟨value, stop⟩ | failure | fault
  · exact done _
  · intro offset hmem
    cases List.mem_singleton.1 hmem
  · exact done _

end Run.Unstalled

/-! ### Combinators -/

namespace Combinator

variable {body : Matching α} {input : List Char}

/-- A sequence repeats nothing itself. -/
theorem sequence_unstalled {items : List (List α → Matching α)}
    (h : ∀ item ∈ items, ∀ previous, (item previous).Unstalled) (previous : List α) :
    (sequence items previous).Unstalled := by
  intro input start
  induction items generalizing previous start with
  | nil => exact .done _
  | cons item items ih =>
    refine (h item (List.mem_cons_self ..) previous input start).andThen fun value stop => ?_
    exact ih (fun item hmem => h item (List.mem_cons_of_mem _ hmem)) _ stop

/-- Nor does a choice. -/
theorem choice_unstalled {alternatives : List (Matching α)}
    (h : ∀ alternative ∈ alternatives, alternative.Unstalled) : (choice alternatives).Unstalled := by
  intro input start
  induction alternatives with
  | nil => exact .done _
  | cons first others ih =>
    have hfirst := h first (List.mem_cons_self ..) input start
    cases others with
    | nil => exact hfirst
    | cons next others =>
      rw [choice_eq_retry]
      exact hfirst.retry (fun _ _ => .done _)
        (ih fun alternative hmem => h alternative (List.mem_cons_of_mem _ hmem))

theorem optional_unstalled (h : body.Unstalled) : (optional body).Unstalled := by
  intro input start
  rw [optional_eq_retry]
  exact (h input start).retry (fun _ _ => .done _) (.done _)

theorem negative_unstalled (h : body.Unstalled) : (negative body).Unstalled :=
  fun input start => (h input start).resume (fun _ _ => .done _) fun _ => .done _

theorem look_unstalled (h : body.Unstalled) : (look body).Unstalled :=
  fun input start => (h input start).resume (fun _ _ => .done _) fun _ => .done _

theorem attempt_unstalled (h : body.Unstalled) : (attempt body).Unstalled :=
  fun input start => (h input start).mapOutcome _

theorem backtrack_unstalled (h : body.Unstalled) : (backtrack body).Unstalled := by
  intro input start
  unfold backtrack
  split
  · exact .done _
  · exact (h _ 0).resume (fun _ _ => .done _) fun _ => .done _

/-! ### Repetitions with something else to do -/

/-- A repetition that ends in some way or other when an attempt does not advance. -/
def manyOr (stalled : Nat → Run (List α)) : (fuel : Nat) → Matching α → Matching (List α)
  | 0, _, _, _ => none
  | fuel + 1, body, input, start =>
    (body input start).retry start
      (fun value stop =>
        if stop = start then stalled start
        else (manyOr stalled fuel body input stop).mapValue (value :: ·))
      (.done (.success [] start))

/-- At least one match and then such a repetition. -/
def many1Or (stalled : Nat → Run (List α)) (fuel : Nat) (body : Matching α) :
    Matching (List α) := fun input start =>
  Run.andThen (body input start) fun first stop =>
    (manyOr stalled fuel body input stop).mapValue (first :: ·)

/-- How a repetition ends when an attempt does not advance. -/
def stall (start : Nat) : Run (List α) :=
  some ([.stalled start], .success [] start)

variable {stalled : Nat → Run (List α)}

/-- Where attempts that do not advance end a repetition as usual, it is the usual one. -/
theorem manyOr_eq (h : ∀ start events value,
    body input start = some (events, .success value start) → stalled start = stall start)
    (fuel start : Nat) : manyOr stalled fuel body input start = many fuel body input start := by
  induction fuel generalizing start with
  | zero => rfl
  | succ fuel ih =>
    rw [manyOr, many_eq_retry]
    rcases hrun : body input start with - | ⟨events, ⟨value, stop⟩ | failure | fault⟩
    · rfl
    · refine congrArg (Run.after events) ?_
      dsimp only
      split
      · rename_i hstayed
        rw [hstayed] at hrun
        exact h start events value hrun
      · rw [ih]
    · rfl
    · rfl

/-- At least one match is the usual repetition as well, if no attempt stays where it is. -/
theorem many1Or_eq (h : ∀ start events value,
    body input start = some (events, .success value start) → stalled start = stall start)
    (fuel start : Nat) : many1Or stalled fuel body input start = many1 fuel body input start := by
  rw [many1Or, many1]
  refine congrArg (Run.andThen (body input start)) ?_
  funext first stop
  rw [manyOr_eq h]

/-- A repetition that does something else instead of stalling records a stall only there. -/
theorem manyOr_unstalled (h : body.Unstalled) (hstalled : ∀ start, (stalled start).Unstalled)
    (fuel : Nat) : (manyOr stalled fuel body).Unstalled := by
  intro input start
  induction fuel generalizing start with
  | zero => trivial
  | succ fuel ih =>
    rw [manyOr]
    refine (h input start).retry (fun value stop => ?_) (.done _)
    split
    · exact hstalled start
    · exact (ih stop).mapValue _

theorem many1Or_unstalled (h : body.Unstalled) (hstalled : ∀ start, (stalled start).Unstalled)
    (fuel : Nat) : (many1Or stalled fuel body).Unstalled :=
  fun input start => (h input start).andThen fun _ stop =>
    (manyOr_unstalled h hstalled fuel input stop).mapValue _

end Combinator

end Peg
