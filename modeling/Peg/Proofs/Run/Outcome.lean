/-
Peg/Proofs/Run/Outcome.lean

Outcomes of runs, without the events on the way.

Each lemma says how the outcome of a combinator follows from those of its
parts; together they compute outcomes step by step.
-/
import Peg.Combinator

namespace Peg

open Text

variable {α β : Type}

namespace Run

@[simp] theorem outcome?_primitive (outcome : Outcome α) :
    (primitive outcome).outcome? = some outcome := by
  cases outcome <;> rfl

@[simp] theorem outcome?_after (events : List Event) (run : Run α) :
    (run.after events).outcome? = run.outcome? := by
  rcases run with - | ⟨later, outcome⟩ <;> rfl

@[simp] theorem outcome?_mapOutcome (f : Outcome α → Outcome β) (run : Run α) :
    (run.mapOutcome f).outcome? = run.outcome?.map f := by
  rcases run with - | ⟨events, outcome⟩ <;> rfl

@[simp] theorem outcome?_mapValue (f : α → β) (run : Run α) :
    (run.mapValue f).outcome? = run.outcome?.map (Outcome.map f) :=
  outcome?_mapOutcome _ run

theorem outcome?_eq_some {run : Run α} {outcome : Outcome α} (h : run.outcome? = some outcome) :
    ∃ events, run = some (events, outcome) := by
  rcases run with - | ⟨events, outcome'⟩
  · cases h
  · obtain rfl := Option.some.inj h
    exact ⟨events, rfl⟩

variable {run : Run α} {value : α} {stop : Nat} {failure : Failure}

theorem outcome?_andThen {next : α → Nat → Run β} (h : run.outcome? = some (.success value stop)) :
    (run.andThen next).outcome? = (next value stop).outcome? := by
  obtain ⟨events, rfl⟩ := outcome?_eq_some h
  exact outcome?_after events _

theorem outcome?_andThen_failure {next : α → Nat → Run β}
    (h : run.outcome? = some (.failure failure)) :
    (run.andThen next).outcome? = some (.failure failure) := by
  obtain ⟨events, rfl⟩ := outcome?_eq_some h
  rfl

theorem outcome?_resume {onSuccess : α → Nat → Run β} {onFailure : Failure → Run β}
    (h : run.outcome? = some (.success value stop)) :
    (run.resume onSuccess onFailure).outcome? = (onSuccess value stop).outcome? := by
  obtain ⟨events, rfl⟩ := outcome?_eq_some h
  exact outcome?_after events _

theorem outcome?_resume_failure {onSuccess : α → Nat → Run β} {onFailure : Failure → Run β}
    (h : run.outcome? = some (.failure failure)) :
    (run.resume onSuccess onFailure).outcome? = (onFailure failure).outcome? := by
  obtain ⟨events, rfl⟩ := outcome?_eq_some h
  exact outcome?_after events _

end Run

/-! ### Combinators -/

namespace Combinator

variable {body : Matching α} {input : List Char} {start stop : Nat} {value : α} {failure : Failure}

theorem outcome?_optional (h : (body input start).outcome? = some (.success value stop)) :
    (optional body input start).outcome? = some (.success (some value) stop) := by
  obtain ⟨events, h⟩ := Run.outcome?_eq_some h
  rw [optional, h]
  rfl

theorem outcome?_optional_refused (h : (body input start).outcome? = some (.failure failure))
    (hposition : failure.position = start) :
    (optional body input start).outcome? = some (.success none start) := by
  obtain ⟨events, h⟩ := Run.outcome?_eq_some h
  simp only [optional, h, if_pos hposition]
  rfl

theorem outcome?_many_refused {fuel : Nat}
    (h : (body input start).outcome? = some (.failure failure))
    (hposition : failure.position = start) :
    (many (fuel + 1) body input start).outcome? = some (.success [] start) := by
  obtain ⟨events, h⟩ := Run.outcome?_eq_some h
  simp only [many, h, if_pos hposition]
  rfl

theorem outcome?_many {fuel last : Nat} {values : List α}
    (h : (body input start).outcome? = some (.success value stop)) (hmoved : stop ≠ start)
    (hmany : (many fuel body input stop).outcome? = some (.success values last)) :
    (many (fuel + 1) body input start).outcome? = some (.success (value :: values) last) := by
  obtain ⟨events, h⟩ := Run.outcome?_eq_some h
  simp only [many, h, if_neg hmoved]
  rw [Run.outcome?_after, Run.outcome?_mapValue, hmany]
  rfl

/-- The first match is kept, whether it advances or not. -/
theorem outcome?_many1_of_success {fuel : Nat}
    (h : (body input start).outcome? = some (.success value stop)) :
    (many1 fuel body input start).outcome? =
      (many fuel body input stop).outcome?.map (Outcome.map (value :: ·)) := by
  rw [many1, Run.outcome?_andThen h, Run.outcome?_mapValue]

/-- Without a first match there is none, and the failure is that of the body. -/
theorem outcome?_many1_of_failure {fuel : Nat}
    (h : (body input start).outcome? = some (.failure failure)) :
    (many1 fuel body input start).outcome? = some (.failure failure) :=
  Run.outcome?_andThen_failure h

theorem outcome?_many1 {fuel last : Nat} {values : List α}
    (h : (body input start).outcome? = some (.success value stop))
    (hmany : (many fuel body input stop).outcome? = some (.success values last)) :
    (many1 fuel body input start).outcome? = some (.success (value :: values) last) := by
  rw [outcome?_many1_of_success h, hmany]
  rfl

/-- Alternatives that fail at the start are passed over. -/
theorem outcome?_choice_append {skipped alternatives : List (Matching α)}
    (h : ∀ alternative ∈ skipped, ∃ expected,
      (alternative input start).outcome? = some (.failure ⟨expected, start⟩))
    (hne : alternatives ≠ []) :
    (choice (skipped ++ alternatives) input start).outcome? =
      (choice alternatives input start).outcome? := by
  induction skipped with
  | nil => rfl
  | cons first skipped ih =>
    obtain ⟨hfirst, hskipped⟩ := List.forall_mem_cons.1 h
    obtain ⟨expected, hfirst⟩ := hfirst
    obtain ⟨events, hfirst⟩ := Run.outcome?_eq_some hfirst
    rw [← ih hskipped]
    rw [List.cons_append]
    rcases hothers : skipped ++ alternatives with - | ⟨next, others⟩
    · exact absurd (List.append_eq_nil_iff.1 hothers).2 hne
    · simp only [choice, hfirst, if_true, Run.outcome?_after]

theorem outcome?_choice_success {alternatives : List (Matching α)}
    (h : (body input start).outcome? = some (.success value stop)) :
    (choice (body :: alternatives) input start).outcome? = some (.success value stop) := by
  cases alternatives with
  | nil => exact h
  | cons next others =>
    obtain ⟨events, hfirst⟩ := Run.outcome?_eq_some h
    simp only [choice, hfirst]
    rfl

/-- A backward match ends as far before its start as its body has read. -/
theorem outcome?_backtrack {passed : List Char} {length : Nat}
    (hpassed : takeBytes? input start = some passed)
    (h : (body passed.reverse 0).outcome? = some (.success value length)) (hle : length ≤ start) :
    (backtrack body input start).outcome? = some (.success value (start - length)) := by
  simp only [backtrack, hpassed]
  rw [Run.outcome?_resume h, if_pos hle]
  rfl

theorem outcome?_backtrack_refused {passed : List Char}
    (hpassed : takeBytes? input start = some passed)
    (h : (body passed.reverse 0).outcome? = some (.failure failure)) :
    (backtrack body input start).outcome? = some (.failure ⟨"<backtrack>", start⟩) := by
  simp only [backtrack, hpassed]
  rw [Run.outcome?_resume_failure h]
  rfl

/-- A backward match is the same on all texts that are the same up to its start. -/
theorem backtrack_congr {input' : List Char}
    (h : takeBytes? input start = takeBytes? input' start) :
    backtrack body input start = backtrack body input' start := by
  rw [backtrack, backtrack, h]

end Combinator

end Peg
