/-
Peg/Proofs/Run/Course.lean

The course of a run: where it starts, what happens, where it stops.

A run stops at the offset of its success or at the position of its failure,
and its events tell what happened on the way.  Much of what is known of runs
relates just these three:

    course.Along input start events stop

A `Course` is such a relation that holds along every reading of text and of
every event at the offset of that event, and that composes: courses through a
middle offset are joined as their events are.  So a sequence that succeeds, a
choice that goes on to its next alternative and a repetition are all covered
by `trans`, and one lemma for each way to put runs together is enough for
every course there is (`Run.Follows`).

Three things that matchers do are not compositions.  Lookahead and `attempt`
go back to where they started, whatever happened in between (`Resets`), and a
backward match changes the text (`Reverses`).  Which courses allow that is
left to them.
-/
import Peg.Proofs.Run.Ensures
import Peg.Proofs.Run.Retry
import Peg.Proofs.Text.Offset

namespace Peg

open Text

variable {α β : Type}

/-! ### Events -/

/-- The offset that an event is about. -/
def Event.offset : Event → Nat
  | .entered _ _ _ start => start
  | .matched _ stop => stop
  | .failed _ failure => failure.position
  | .refused failure => failure.position
  | .stalled start => start

/-! ### Courses -/

/-- A relation between the start of a run, its events and the offset where it stops. -/
structure Course where
  Along (input : List Char) (start : Nat) (events : List Event) (stop : Nat) : Prop
  stay : ∀ input start, Along input start [] start
  trans : ∀ {input start events middle later stop}, Along input start events middle →
    Along input middle later stop → Along input start (events ++ later) stop
  read : ∀ {input start} (passed : List Char) {rest},
    dropBytes? input start = some (passed ++ rest) → Along input start [] (start + size passed)
  event : ∀ input (event : Event), Along input event.offset [event] event.offset

namespace Course

/-- A course that can be taken back. -/
def Resets (course : Course) : Prop :=
  ∀ {input start events stop}, course.Along input start events stop →
    course.Along input start events start

/-- A course that can be taken on the text before an offset, read backward. -/
structure Reverses (course : Course) : Prop where
  success : ∀ {input start passed events length}, takeBytes? input start = some passed →
    course.Along passed.reverse 0 events length →
      length ≤ start ∧ course.Along input start events (start - length)
  failure : ∀ {input start passed events length}, takeBytes? input start = some passed →
    course.Along passed.reverse 0 events length → course.Along input start events start

variable (course : Course) {input : List Char} {start stop : Nat} {events : List Event}

/-- Reading on from where a run stops. -/
theorem along_read (h : course.Along input start events stop) (passed : List Char)
    {rest : List Char} (hread : dropBytes? input stop = some (passed ++ rest)) :
    course.Along input start events (stop + size passed) := by
  have hboth := course.trans h (course.read passed hread)
  rwa [List.append_nil] at hboth

/-- An event where a run stops. -/
theorem along_event (h : course.Along input start events stop) (event : Event)
    (hoffset : event.offset = stop) : course.Along input start (events ++ [event]) stop := by
  subst hoffset
  exact course.trans h (course.event input event)

end Course

/-! ### Runs -/

/-- A piece of the text after an offset is read and given, or the text is refused there. -/
def Primitive.IsReading (input : List Char) (start : Nat) : Outcome String → Prop
  | .success text stop => ∃ passed rest, dropBytes? input start = some (passed ++ rest) ∧
      text = String.ofList passed ∧ stop = start + size passed
  | .failure failure => failure.position = start
  | .fault _ => False

/-- A run follows a course up to where it stops, and if it has no result then because of a rule
that does not exist. -/
def Run.Follows (course : Course) (input : List Char) (start : Nat) (run : Run α) : Prop :=
  match run with
  | none => True
  | some (events, .success _ stop) => course.Along input start events stop
  | some (events, .failure failure) => course.Along input start events failure.position
  | some (_, .fault fault) => ∃ rule, fault = .missingRule rule

/-- A matching follows a course at every offset of every text. -/
def Matching.Follows (course : Course) (matching : Matching α) : Prop :=
  ∀ input start, (matching input start).Follows course input start

namespace Run.Follows

variable {course : Course} {input : List Char} {start middle : Nat} {run : Run α}

theorem stay (value : α) : (Run.done (.success value start)).Follows course input start :=
  course.stay input start

theorem refuse (expected : String) :
    (Run.done (α := α) (.failure ⟨expected, start⟩)).Follows course input start :=
  course.stay input start

/-- A primitive matcher reads some text or refuses it where it stands. -/
theorem primitive {outcome : Outcome String} (h : Primitive.IsReading input start outcome) :
    (Run.primitive outcome).Follows course input start := by
  rcases outcome with ⟨text, stop⟩ | failure | fault
  · obtain ⟨passed, rest, hread, -, rfl⟩ := h
    exact course.read passed hread
  · have hposition : failure.position = start := h
    show course.Along input start [.refused failure] failure.position
    rw [← hposition]
    exact course.event input (.refused failure)
  · exact h.elim

/-- A run may begin where other events led. -/
theorem after {events : List Event} (h : course.Along input start events middle)
    (hrun : run.Follows course input middle) : (run.after events).Follows course input start := by
  rcases run with - | ⟨later, ⟨value, stop⟩ | failure | fault⟩
  · trivial
  · exact course.trans h hrun
  · exact course.trans h hrun
  · exact hrun

theorem mapValue (f : α → β) (h : run.Follows course input start) :
    (run.mapValue f).Follows course input start := by
  rcases run with - | ⟨events, ⟨value, stop⟩ | failure | fault⟩ <;> exact h

/-- A run follows a course if it does so up to its success and from there on. -/
theorem andThen {next : α → Nat → Run β} (h : run.Follows course input start)
    (hnext : ∀ value stop, (next value stop).Follows course input stop) :
    (run.andThen next).Follows course input start := by
  rcases run with - | ⟨events, ⟨value, stop⟩ | failure | fault⟩
  · trivial
  · exact after h (hnext value stop)
  · exact h
  · exact h

/-- What goes on after any ending goes on from the start, for a course that can be taken back. -/
theorem resume (hresets : course.Resets) {onSuccess : α → Nat → Run β}
    {onFailure : Failure → Run β} (h : run.Follows course input start)
    (hsuccess : ∀ value stop, (onSuccess value stop).Follows course input start)
    (hfailure : ∀ failure, (onFailure failure).Follows course input start) :
    (run.resume onSuccess onFailure).Follows course input start := by
  rcases run with - | ⟨events, ⟨value, stop⟩ | failure | fault⟩
  · trivial
  · exact after (hresets h) (hsuccess value stop)
  · exact after (hresets h) (hfailure failure)
  · exact h

/-- A failure that is passed over is at the start, where the run goes on. -/
theorem retry {onSuccess : α → Nat → Run β} {refused : Run β} (h : run.Follows course input start)
    (hsuccess : ∀ value stop, (onSuccess value stop).Follows course input stop)
    (hrefused : refused.Follows course input start) :
    (run.retry start onSuccess refused).Follows course input start := by
  rcases run with - | ⟨events, ⟨value, stop⟩ | failure | fault⟩
  · trivial
  · exact after h (hsuccess value stop)
  · have halong : course.Along input start events failure.position := h
    simp only [Run.retry, Run.resume]
    split
    · -- the run has not moved, so it goes on where it is
      rename_i hposition
      rw [hposition] at halong
      exact after halong hrefused
    · rw [Run.after_done]
      exact halong
  · exact h

/-- What the course says of where it stops is ensured of successes and failures alike. -/
theorem ensures {P : Nat → Prop} (h : run.Follows course input start)
    (hstop : ∀ events stop, course.Along input start events stop → P stop) :
    run.Ensures (fun _ stop => P stop) fun failure => P failure.position := by
  rcases run with - | ⟨events, ⟨value, stop⟩ | failure | fault⟩
  · trivial
  · exact hstop events stop h
  · exact hstop events failure.position h
  · trivial

end Run.Follows

/-! ### Combinators -/

namespace Combinator

variable {course : Course} {body : Matching α}

/-- A sequence follows every course that its items follow. -/
theorem sequence_follows {items : List (List α → Matching α)}
    (h : ∀ item ∈ items, ∀ previous, (item previous).Follows course) (previous : List α) :
    (sequence items previous).Follows course := by
  intro input start
  induction items generalizing previous start with
  | nil => exact .stay _
  | cons item items ih =>
    have hitem := h item (List.mem_cons_self ..) previous input start
    refine hitem.andThen fun value stop => ?_
    exact ih (fun item hmem => h item (List.mem_cons_of_mem _ hmem)) _ stop

/-- So does a choice, which tries another alternative only from where it started. -/
theorem choice_follows {alternatives : List (Matching α)}
    (h : ∀ alternative ∈ alternatives, alternative.Follows course) :
    (choice alternatives).Follows course := by
  intro input start
  induction alternatives with
  | nil => exact .refuse _
  | cons first others ih =>
    have hfirst := h first (List.mem_cons_self ..) input start
    cases others with
    | nil => exact hfirst
    | cons next others =>
      have hothers := ih fun alternative hmem => h alternative (List.mem_cons_of_mem _ hmem)
      rw [choice_eq_retry]
      exact hfirst.retry (fun _ _ => .stay _) hothers

theorem optional_follows (h : body.Follows course) : (optional body).Follows course := by
  intro input start
  rw [optional_eq_retry]
  exact (h input start).retry (fun _ _ => .stay _) (.stay _)

/-- So does a repetition, with any fuel. -/
theorem many_follows (h : body.Follows course) (fuel : Nat) : (many fuel body).Follows course := by
  intro input start
  induction fuel generalizing start with
  | zero => trivial
  | succ fuel ih =>
    rw [many_eq_retry]
    refine (h input start).retry (fun value stop => ?_) (.stay _)
    split
    · -- an attempt that stays is the last one, and its value is dropped
      rename_i hstayed
      subst hstayed
      exact course.event input (.stalled stop)
    · exact (ih stop).mapValue _

theorem many1_follows (h : body.Follows course) (fuel : Nat) :
    (many1 fuel body).Follows course := by
  intro input start
  exact (h input start).andThen fun _ stop => (many_follows h fuel input stop).mapValue _

/-- A negative match goes back to its start before it reads a character. -/
theorem negative_follows (hresets : course.Resets) (h : body.Follows course) :
    (negative body).Follows course := by
  intro input start
  refine (h input start).resume hresets (fun _ _ => .refuse _) fun _ => ?_
  split
  · rename_i c rest hrest
    exact course.read [c] hrest
  · exact .refuse _

/-- Lookahead goes back to its start, whatever its body does. -/
theorem look_follows (hresets : course.Resets) (h : body.Follows course) :
    (look body).Follows course := by
  intro input start
  exact (h input start).resume hresets (fun _ _ => .stay _) fun _ => .refuse _

/-- An attempt goes back from its failure. -/
theorem attempt_follows (hresets : course.Resets) (h : body.Follows course) :
    (attempt body).Follows course := by
  intro input start
  have hbody := h input start
  rw [attempt]
  generalize body input start = run at hbody
  rcases run with - | ⟨events, ⟨value, stop⟩ | failure | fault⟩
  · trivial
  · exact hbody
  · exact hresets hbody
  · exact hbody

/-- A backward match follows a course that may be taken on the reversed text. -/
theorem backtrack_follows (hreverses : course.Reverses) (h : body.Follows course) :
    (backtrack body).Follows course := by
  intro input start
  unfold backtrack
  split
  · exact .refuse _
  · rename_i passed hpassed
    have hbody := h passed.reverse 0
    generalize body passed.reverse 0 = run at hbody
    rcases run with - | ⟨events, ⟨value, length⟩ | failure | fault⟩
    · trivial
    · obtain ⟨hle, hback⟩ := hreverses.success hpassed hbody
      simp only [Run.resume, if_pos hle]
      exact .after hback (.stay _)
    · exact .after (hreverses.failure hpassed hbody) (.refuse _)
    · exact hbody

end Combinator

end Peg
