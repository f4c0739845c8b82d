/-
Peg/Combinator.lean

Ways to put matchings together.

One rule governs all of them: a failure at the offset where an attempt started
means that the attempt does not apply there, so a choice goes on to its next
alternative and a repetition ends; a failure further on is committed and is
the failure of the whole.  `attempt` moves every failure of its body to the
start and so undoes the commitment.

Repetitions take fuel, for a body may move backward.  A body that never does
so, and whose ends are within the text, needs no more of it than the text has
bytes.
-/
import Peg.Outcome

namespace Peg

open Text

namespace Combinator

variable {α β : Type}

/-! ### Sequences and choices -/

/-- One item after the other, each knowing what the previous ones gave. -/
def sequence : List (List α → Matching α) → List α → Matching (List α)
  | [], previous, _, start => .done (.success previous start)
  | item :: items, previous, input, start =>
    Run.andThen (item previous input start) fun value stop =>
      sequence items (previous ++ [value]) input stop

/-- The first alternative that does not fail at the start; the last one unconditionally. -/
def choice : List (Matching α) → Matching α
  | [], _, start => .done (.failure ⟨"<choice>", start⟩)
  | [last], input, start => last input start
  | first :: next :: others, input, start =>
    match first input start with
    | some (events, .failure failure) =>
      if failure.position = start then (choice (next :: others) input start).after events
      else some (events, .failure failure)
    | run => run

/-! ### Repetitions -/

/-- Zero or one match. -/
def optional (body : Matching α) : Matching (Option α) := fun input start =>
  match body input start with
  | some (events, .failure failure) =>
    if failure.position = start then some (events, .success none start)
    else some (events, .failure failure)
  | run => run.mapValue some

/-- Any number of matches, up to a failure where an attempt starts or to an attempt that succeeds
without advancing; the value of the latter is dropped. -/
def many : (fuel : Nat) → Matching α → Matching (List α)
  | 0, _, _, _ => none
  | fuel + 1, body, input, start =>
    match body input start with
    | none => none
    | some (events, .success value stop) =>
      if stop = start then some (events ++ [.stalled start], .success [] start)
      else ((many fuel body input stop).mapValue (value :: ·)).after events
    | some (events, .failure failure) =>
      if failure.position = start then some (events, .success [] start)
      else some (events, .failure failure)
    | some (events, .fault fault) => some (events, .fault fault)

/-- At least one match.  The first may fail anywhere and may advance or not. -/
def many1 (fuel : Nat) (body : Matching α) : Matching (List α) := fun input start =>
  Run.andThen (body input start) fun first stop =>
    (many fuel body input stop).mapValue (first :: ·)

/-! ### Lookahead -/

/-- One character at which the body does not match. -/
def negative (body : Matching α) : Matching String := fun input start =>
  (body input start).resume
    (fun _ _ => .done (.failure ⟨"<not>", start⟩))
    (fun _ => .done (match dropBytes? input start with
      | some (c :: _) => .success c.toString (start + c.utf8Size)
      | _ => .failure ⟨"<not>", start⟩))

/-- The value of the body, without reading anything. -/
def look (body : Matching α) : Matching α := fun input start =>
  (body input start).resume
    (fun value _ => .done (.success value start))
    (fun _ => .done (.failure ⟨"<look>", start⟩))

/-- The body, with its failures reported where it started. -/
def attempt (body : Matching α) : Matching α := fun input start =>
  (body input start).mapOutcome fun
    | .failure failure => .failure (failure.moveTo start)
    | outcome => outcome

/-- The body on the text before the start, read backward.  It ends before the start by as much as
it has matched. -/
def backtrack (body : Matching α) : Matching α := fun input start =>
  match takeBytes? input start with
  | none => .done (.failure ⟨"<backtrack>", start⟩)
  | some passed =>
    (body passed.reverse 0).resume
      (fun value length => .done <|
        if length ≤ start then .success value (start - length)
        else .fault (.beforeBeginning start length))
      (fun _ => .done (.failure ⟨"<backtrack>", start⟩))

end Combinator

end Peg
