/-
Peg/Outcome.lean

How a match ends, and what happens on the way.

A match succeeds with a value and the offset after it, or fails with what was
expected and where.  The position of a failure carries meaning: a failure at
the offset where the attempt started says "this does not apply here", and one
further on is an error in the text.

`fault` is the third ending.  It stands for operations without a result, a
rule that does not exist and an offset before the beginning of the text, and
no combinator ever recovers from it.

A run is a match along with the events on the way to it.  The events tell
which rules were entered and left, which primitive matchers refused the text
and which repetitions were stopped because they did not advance; diagnostics
and traces are read off them.  `none` is a run whose steps ran out.
-/
import Peg.Value
import Peg.Text.Lines

namespace Peg

/-! ### Failures -/

/-- What was expected, and where it was not found. -/
structure Failure where
  expected : String
  position : Nat
  deriving DecidableEq, Repr, Inhabited

namespace Failure

/-- The same failure reported somewhere else. -/
def moveTo (failure : Failure) (position : Nat) : Failure :=
  { failure with position }

/-- The failure as a sentence. -/
def message (failure : Failure) : String :=
  "expected " ++ failure.expected ++ " at offset " ++ toString failure.position

/-- The failure shown in the text it is about. -/
def report (failure : Failure) (source : List Char) (name : Option String) : String :=
  locatedMessage source failure.position ("Expected " ++ failure.expected) name

end Failure

/-! ### Outcomes -/

/-- Operations without a result. -/
inductive Fault where
  /-- A rule was applied that the program does not have. -/
  | missingRule (rule : Nat)
  /-- A backward match was said to reach before the beginning of the text. -/
  | beforeBeginning (start length : Nat)
  deriving DecidableEq, Repr

/-- How a match ends. -/
inductive Outcome (α : Type) where
  | success (value : α) (stop : Nat)
  | failure (failure : Failure)
  | fault (fault : Fault)

namespace Outcome

/-- The same outcome with another value. -/
def map {α β : Type} (f : α → β) : Outcome α → Outcome β
  | .success value stop => .success (f value) stop
  | .failure reason => .failure reason
  | .fault reason => .fault reason

end Outcome

/-! ### Runs -/

/-- What happens during a match. -/
inductive Event where
  /-- A rule is applied, with the literal it is instantiated with if it is a template. -/
  | entered (rule : Nat) (param : Option String) (input : List Char) (start : Nat)
  /-- The rule entered last and not left yet has matched. -/
  | matched (rule stop : Nat)
  /-- The rule entered last and not left yet has failed. -/
  | failed (rule : Nat) (failure : Failure)
  /-- A primitive matcher refused the text. -/
  | refused (failure : Failure)
  /-- A repetition stopped at an attempt that succeeded without advancing. -/
  | stalled (start : Nat)

/-- A match and the events on the way to it, or `none` if it was cut short. -/
abbrev Run (α : Type) := Option (List Event × Outcome α)

/-- Something that can be matched against a text at an offset. -/
abbrev Matching (α : Type) := List Char → Nat → Run α

namespace Run

variable {α β : Type}

/-- A run in which nothing happened. -/
def done (outcome : Outcome α) : Run α :=
  some ([], outcome)

/-- The run of a primitive matcher, which records its refusal. -/
def primitive : Outcome α → Run α
  | .failure failure => some ([.refused failure], .failure failure)
  | outcome => some ([], outcome)

/-- A run after some events. -/
def after (events : List Event) (run : Run α) : Run α :=
  run.map fun (later, outcome) => (events ++ later, outcome)

/-- The same run with another outcome. -/
def mapOutcome (f : Outcome α → Outcome β) (run : Run α) : Run β :=
  run.map fun (events, outcome) => (events, f outcome)

/-- The same run with another value. -/
def mapValue (f : α → β) : Run α → Run β :=
  mapOutcome (Outcome.map f)

/-- A run that goes on after a success, from its value and the offset after it. -/
def andThen (run : Run α) (next : α → Nat → Run β) : Run β :=
  match run with
  | none => none
  | some (events, .success value stop) => (next value stop).after events
  | some (events, .failure failure) => some (events, .failure failure)
  | some (events, .fault fault) => some (events, .fault fault)

/-- A run that goes on after any ending but a fault. -/
def resume (run : Run α) (onSuccess : α → Nat → Run β) (onFailure : Failure → Run β) : Run β :=
  match run with
  | none => none
  | some (events, .success value stop) => (onSuccess value stop).after events
  | some (events, .failure failure) => (onFailure failure).after events
  | some (events, .fault fault) => some (events, .fault fault)

/-- The outcome of a run. -/
def outcome? (run : Run α) : Option (Outcome α) :=
  run.map (·.2)

end Run

end Peg
