/-
Peg/Proofs/Run/Ensures.lean

What the outcome of a run is known to satisfy.

`Run.Ensures run onSuccess onFailure` says that a run, if it ends, ends in a
success or a failure that has the given property.  A run that was cut short
and a fault satisfy everything: that runs end, and without faults, are
properties of their own.

There is one lemma for each way to put runs together.  The repetition has an
invariant of the offsets its attempts start at, and a relation between such an
offset, the values collected from there on and the offset where it stops.
-/
import Mathlib.Tactic.Common
import Peg.Combinator

namespace Peg

variable {α β : Type}

/-- What is known of a run that succeeds, and of one that fails. -/
def Run.Ensures (run : Run α) (onSuccess : α → Nat → Prop) (onFailure : Failure → Prop) : Prop :=
  match run with
  | some (_, .success value stop) => onSuccess value stop
  | some (_, .failure failure) => onFailure failure
  | _ => True

namespace Run.Ensures

variable {run : Run α} {P P' : α → Nat → Prop} {Q Q' : Failure → Prop}

theorem any (run : Run α) : run.Ensures (fun _ _ => True) fun _ => True := by
  rcases run with - | ⟨_, ⟨value, stop⟩ | failure | fault⟩ <;> trivial

/-- What is ensured of successes holds of the one that a run ended in. -/
theorem success (h : run.Ensures P Q) {events : List Event} {value : α} {stop : Nat}
    (ended : run = some (events, .success value stop)) : P value stop := by
  rw [ended] at h
  exact h

/-- Likewise for the failure. -/
theorem failure (h : run.Ensures P Q) {events : List Event} {failure : Failure}
    (ended : run = some (events, .failure failure)) : Q failure := by
  rw [ended] at h
  exact h

/-- Less may be claimed than is known. -/
theorem mono (h : run.Ensures P Q) (hP : ∀ value stop, P value stop → P' value stop)
    (hQ : ∀ failure, Q failure → Q' failure) : run.Ensures P' Q' := by
  rcases run with - | ⟨events, ⟨value, stop⟩ | failure | fault⟩
  · trivial
  · exact hP _ _ h
  · exact hQ _ h
  · trivial

/-- Two things that are ensured are ensured together. -/
theorem and (h : run.Ensures P Q) (h' : run.Ensures P' Q') :
    run.Ensures (fun value stop => P value stop ∧ P' value stop)
      fun failure => Q failure ∧ Q' failure := by
  rcases run with - | ⟨_, ⟨value, stop⟩ | failure | fault⟩
  · trivial
  · exact ⟨h, h'⟩
  · exact ⟨h, h'⟩
  · trivial

theorem after (events : List Event) (h : run.Ensures P Q) : (run.after events).Ensures P Q := by
  rcases run with - | ⟨_, ⟨value, stop⟩ | failure | fault⟩ <;> exact h

theorem mapValue {P : β → Nat → Prop} (f : α → β)
    (h : run.Ensures (fun value stop => P (f value) stop) Q) : (run.mapValue f).Ensures P Q := by
  rcases run with - | ⟨_, ⟨value, stop⟩ | failure | fault⟩ <;> exact h

/-- What follows a success may rely on what is known of it. -/
theorem andThen {P' : β → Nat → Prop} {next : α → Nat → Run β} (h : run.Ensures P Q)
    (hnext : ∀ value stop, P value stop → (next value stop).Ensures P' Q) :
    (run.andThen next).Ensures P' Q := by
  rcases run with - | ⟨events, ⟨value, stop⟩ | failure | fault⟩
  · trivial
  · exact (hnext value stop h).after events
  · exact h
  · trivial

/-- What follows a success only matters for the values and offsets it can have. -/
theorem andThen_congr {next next' : α → Nat → Run β} (h : run.Ensures P Q)
    (hnext : ∀ value stop, P value stop → next value stop = next' value stop) :
    run.andThen next = run.andThen next' := by
  rcases run with - | ⟨events, ⟨value, stop⟩ | failure | fault⟩
  · rfl
  · exact congrArg (Run.after events) (hnext value stop h)
  · rfl
  · rfl

/-- What follows a failure may rely on what is known of that. -/
theorem resume {P' : β → Nat → Prop} {Q' : Failure → Prop} {onSuccess : α → Nat → Run β}
    {onFailure : Failure → Run β} (h : run.Ensures P Q)
    (hsuccess : ∀ value stop, P value stop → (onSuccess value stop).Ensures P' Q')
    (hfailure : ∀ failure, Q failure → (onFailure failure).Ensures P' Q') :
    (run.resume onSuccess onFailure).Ensures P' Q' := by
  rcases run with - | ⟨events, ⟨value, stop⟩ | failure | fault⟩
  · trivial
  · exact (hsuccess value stop h).after events
  · exact (hfailure failure h).after events
  · trivial

/-- A primitive matcher. -/
theorem primitive {outcome : Outcome α}
    (hsuccess : ∀ value stop, outcome = .success value stop → P value stop)
    (hfailure : ∀ failure, outcome = .failure failure → Q failure) :
    (Run.primitive outcome).Ensures P Q := by
  rcases outcome with ⟨value, stop⟩ | failure | fault
  · exact hsuccess _ _ rfl
  · exact hfailure _ rfl
  · trivial

end Run.Ensures

/-! ### Combinators -/

namespace Combinator

variable {body body' : Matching α} {input : List Char} {start : Nat} {Q Q' : Failure → Prop}
variable {I : Nat → Prop}

/-- What every item adds to keeps holding of what has been collected. -/
theorem sequence_ensures {P : List α → Nat → Prop} {items : List (List α → Matching α)}
    (h : ∀ item ∈ items, ∀ previous start, P previous start →
      (item previous input start).Ensures (fun value stop => P (previous ++ [value]) stop) Q)
    {previous : List α} (hprevious : P previous start) :
    (sequence items previous input start).Ensures P Q := by
  induction items generalizing previous start with
  | nil => exact hprevious
  | cons item items ih =>
    refine (h item (List.mem_cons_self ..) previous start hprevious).andThen fun value stop => ?_
    exact ih fun item hmem => h item (List.mem_cons_of_mem _ hmem)

/-- A choice ends as one of its alternatives does or, if it has none, in a failure of its own. -/
theorem choice_ensures {P : α → Nat → Prop} {alternatives : List (Matching α)}
    (h : ∀ alternative ∈ alternatives, (alternative input start).Ensures P Q)
    (hnone : Q ⟨"<choice>", start⟩) : (choice alternatives input start).Ensures P Q := by
  induction alternatives with
  | nil => exact hnone
  | cons first others ih =>
    have hfirst := h first (List.mem_cons_self ..)
    cases others with
    | nil => exact hfirst
    | cons next others =>
      have hothers := ih fun alternative hmem => h alternative (List.mem_cons_of_mem _ hmem)
      rw [choice]
      split
      · rename_i events failure hfailed
        split
        · exact hothers.after events
        · exact hfirst.failure hfailed
      · exact hfirst

theorem optional_ensures {P : Option α → Nat → Prop}
    (h : (body input start).Ensures (fun value stop => P (some value) stop) Q)
    (hnone : P none start) : (optional body input start).Ensures P Q := by
  rw [optional]
  split
  · rename_i events failure hfailed
    split
    · exact hnone
    · exact h.failure hfailed
  · exact h.mapValue some

/-- A repetition keeps the invariant of the offsets that its attempts start at, and what holds of
its last attempt is carried back to the first by the relation. -/
theorem many_ensures {fuel : Nat} {P : Nat → List α → Nat → Prop}
    (hnil : ∀ start, I start → P start [] start)
    (hbody : ∀ start, I start → (body input start).Ensures
      (fun value stop => I stop ∧
        ∀ values last, P stop values last → P start (value :: values) last) Q)
    (hstart : I start) : (many fuel body input start).Ensures (P start) Q := by
  induction fuel generalizing start with
  | zero => trivial
  | succ fuel ih =>
    have hfirst := hbody start hstart
    rw [many]
    split
    · trivial
    · rename_i events value stop hsucceeded
      obtain ⟨hstop, hcons⟩ := hfirst.success hsucceeded
      split
      · exact hnil start hstart
      · refine ((ih hstop).mono ?_ fun _ h => h).mapValue (value :: ·) |>.after events
        exact hcons
    · rename_i events failure hfailed
      split
      · exact hnil start hstart
      · exact hfirst.failure hfailed
    · trivial

theorem attempt_ensures {P : α → Nat → Prop} (h : (body input start).Ensures P Q)
    (hmoved : ∀ failure, Q failure → Q' (failure.moveTo start)) :
    (attempt body input start).Ensures P Q' := by
  rw [attempt]
  generalize body input start = run at h
  rcases run with - | ⟨events, ⟨value, stop⟩ | failure | fault⟩
  · trivial
  · exact h
  · exact hmoved failure h
  · trivial

/-! ### The same runs

Parts that do the same at the offsets they are used at make the same whole. -/

/-- Sequences are equal if their items are, at offsets with an invariant that the items keep. -/
theorem sequence_congr {ι : Type} {items : List ι} {matching matching' : ι → List α → Matching α}
    (h : ∀ item ∈ items, ∀ previous start, I start →
      matching item previous input start = matching' item previous input start)
    (hstops : ∀ item ∈ items, ∀ previous start, I start →
      (matching' item previous input start).Ensures (fun _ stop => I stop) fun _ => True)
    (hstart : I start) (previous : List α) :
    sequence (items.map matching) previous input start =
      sequence (items.map matching') previous input start := by
  induction items generalizing previous start with
  | nil => rfl
  | cons item items ih =>
    simp only [List.map_cons, sequence]
    rw [h item (List.mem_cons_self ..) previous start hstart]
    have hitem := hstops item (List.mem_cons_self ..) previous start hstart
    refine hitem.andThen_congr fun value stop hstop => ?_
    exact ih (fun item hmem => h item (List.mem_cons_of_mem _ hmem))
      (fun item hmem => hstops item (List.mem_cons_of_mem _ hmem)) hstop _

theorem choice_congr {ι : Type} {alternatives : List ι} {matching matching' : ι → Matching α}
    (h : ∀ alternative ∈ alternatives,
      matching alternative input start = matching' alternative input start) :
    choice (alternatives.map matching) input start =
      choice (alternatives.map matching') input start := by
  induction alternatives with
  | nil => rfl
  | cons first others ih =>
    have hfirst := h first (List.mem_cons_self ..)
    have hothers := ih fun alternative hmem => h alternative (List.mem_cons_of_mem _ hmem)
    cases others with
    | nil => exact hfirst
    | cons next others =>
      simp only [List.map_cons, choice] at hothers ⊢
      rw [hfirst, hothers]

/-- Repetitions of bodies that are equal where the invariant holds are equal. -/
theorem many_congr (h : ∀ start, I start → body input start = body' input start)
    (hstops : ∀ start, I start → (body' input start).Ensures (fun _ stop => I stop) fun _ => True)
    (hstart : I start) (fuel : Nat) : many fuel body input start = many fuel body' input start := by
  induction fuel generalizing start with
  | zero => rfl
  | succ fuel ih =>
    have hbody := hstops start hstart
    rw [many, many, h start hstart]
    rcases hrun : body' input start with - | ⟨events, ⟨value, stop⟩ | failure | fault⟩
    · rfl
    · dsimp only
      rw [ih (hbody.success hrun)]
    · rfl
    · rfl

theorem many1_congr (h : ∀ start, I start → body input start = body' input start)
    (hstops : ∀ start, I start → (body' input start).Ensures (fun _ stop => I stop) fun _ => True)
    (hstart : I start) (fuel : Nat) :
    many1 fuel body input start = many1 fuel body' input start := by
  rw [many1, many1, h start hstart]
  refine (hstops start hstart).andThen_congr fun value stop hstop => ?_
  rw [many_congr h hstops hstop]

end Combinator

end Peg
