/-
Peg/Proofs/Run/Classic.lean

Choices and repetitions without commitment.

In classic parsing expressions any failure of an alternative leads to the next
one, and any failure of an attempt ends a repetition, wherever it happened.
`Classic.choice`, `Classic.optional` and `Classic.many` are these readings.
None of them looks at the position of a failure.

`Run.Agrees commits start run classic` says how a run compares with the
classic reading of the same thing.  Both end or neither does, in the same
value at the same offset or in some failure.  Only if `commits` holds there is
an exception: a failure past the start has been committed, and the classic
reading may have found something.

The two readings agree as long as the position that decides about going on
is the start or an exception (`Run.Retries`).  Then commitment makes no
difference, or one that is covered.
-/
import Peg.Proofs.Run.Ensures
import Peg.Proofs.Run.Retry

namespace Peg

variable {α β : Type}

/-! ### Classic combinators -/

namespace Classic

/-- The first alternative that matches. -/
def choice : List (Matching α) → Matching α
  | [], _, start => .done (.failure ⟨"<choice>", start⟩)
  | first :: others, input, start =>
    (first input start).resume (fun value stop => .done (.success value stop)) fun _ =>
      choice others input start

/-- A match of the body, or nothing. -/
def optional (body : Matching α) : Matching (Option α) := fun input start =>
  (body input start).resume (fun value stop => .done (.success (some value) stop)) fun _ =>
    .done (.success none start)

/-- As many matches of the body as there are, up to one that does not advance. -/
def many : (fuel : Nat) → Matching α → Matching (List α)
  | 0, _, _, _ => none
  | fuel + 1, body, input, start =>
    (body input start).resume
      (fun value stop =>
        if stop = start then .done (.success [] start)
        else (many fuel body input stop).mapValue (value :: ·))
      fun _ => .done (.success [] start)

/-- At least one match of the body. -/
def many1 (fuel : Nat) (body : Matching α) : Matching (List α) := fun input start =>
  Run.andThen (body input start) fun first stop =>
    (many fuel body input stop).mapValue (first :: ·)

end Classic

/-! ### Agreement -/

/-- The same success, or both a failure, or the same fault. -/
def Outcome.Agrees : Outcome α → Outcome α → Prop
  | .success value stop, .success value' stop' => value = value' ∧ stop = stop'
  | .failure _, .failure _ => True
  | .fault reason, .fault reason' => reason = reason'
  | _, _ => False

/-- A run and the classic reading of what it has run.  With `commits`, a failure past the start
says nothing about the latter. -/
inductive Run.Agrees (commits : Prop) (start : Nat) : Run α → Run α → Prop
  | cutShort : Agrees commits start none none
  | success (events events' : List Event) (value : α) (stop : Nat) :
      Agrees commits start (some (events, .success value stop))
        (some (events', .success value stop))
  | failure (events events' : List Event) (failure failure' : Failure) :
      Agrees commits start (some (events, .failure failure)) (some (events', .failure failure'))
  | fault (events events' : List Event) (fault : Fault) :
      Agrees commits start (some (events, .fault fault)) (some (events', .fault fault))
  | committed (events : List Event) (failure : Failure) (classic : Run α) (hcommits : commits)
      (hpast : start < failure.position) :
      Agrees commits start (some (events, .failure failure)) classic

/-- Failures that are not where the attempt started are committed. -/
def Run.Retries (commits : Prop) (start : Nat) (run : Run α) : Prop :=
  run.Ensures (fun _ _ => True) fun failure =>
    failure.position = start ∨ commits ∧ start < failure.position

/-- A run that goes forward fails where it started or past it. -/
theorem Run.Retries.of_forward {commits : Prop} (hcommits : commits) {start : Nat} {run : Run α}
    (h : run.Ensures (fun _ stop => start ≤ stop) fun failure => start ≤ failure.position) :
    run.Retries commits start :=
  h.mono (fun _ _ _ => trivial) fun _ hposition =>
    (Nat.eq_or_lt_of_le hposition).imp Eq.symm fun hpast => ⟨hcommits, hpast⟩

namespace Run.Agrees

variable {commits : Prop} {start start' : Nat} {run classic : Run α}

theorem refl (run : Run α) : Agrees commits start run run := by
  rcases run with - | ⟨events, ⟨value, stop⟩ | failure | fault⟩
  · exact .cutShort
  · exact .success ..
  · exact .failure ..
  · exact .fault ..

/-- What is past an offset is past an earlier one. -/
theorem earlier (h : Agrees commits start' run classic) (hle : start ≤ start') :
    Agrees commits start run classic := by
  cases h with
  | cutShort => exact .cutShort
  | success => exact .success ..
  | failure => exact .failure ..
  | fault => exact .fault ..
  | committed events failure classic hcommits hpast =>
    exact .committed _ _ _ hcommits (Nat.lt_of_le_of_lt hle hpast)

theorem after (events events' : List Event) (h : Agrees commits start run classic) :
    Agrees commits start (run.after events) (classic.after events') := by
  cases h with
  | cutShort => exact .cutShort
  | success => exact .success ..
  | failure => exact .failure ..
  | fault => exact .fault ..
  | committed later failure classic hcommits hpast => exact .committed _ _ _ hcommits hpast

theorem mapValue (f : α → β) (h : Agrees commits start run classic) :
    Agrees commits start (run.mapValue f) (classic.mapValue f) := by
  cases h with
  | cutShort => exact .cutShort
  | success => exact .success ..
  | failure => exact .failure ..
  | fault => exact .fault ..
  | committed events failure classic hcommits hpast => exact .committed _ _ _ hcommits hpast

theorem andThen {next next' : α → Nat → Run β} {Q : Failure → Prop}
    (h : Agrees commits start run classic) (hforward : run.Ensures (fun _ stop => start ≤ stop) Q)
    (hnext : ∀ value stop, Agrees commits stop (next value stop) (next' value stop)) :
    Agrees commits start (run.andThen next) (classic.andThen next') := by
  cases h with
  | cutShort => exact .cutShort
  | success events events' value stop => exact ((hnext value stop).earlier hforward).after _ _
  | failure => exact .failure ..
  | fault => exact .fault ..
  | committed events failure classic hcommits hpast => exact .committed _ _ _ hcommits hpast

/-- Lookahead goes on after any failure, so there must be no exceptions. -/
theorem resume {onSuccess onSuccess' : α → Nat → Run β} {onFailure onFailure' : Failure → Run β}
    (hcommits : ¬ commits) (h : Agrees commits start run classic)
    (hsuccess : ∀ value stop, Agrees commits start (onSuccess value stop) (onSuccess' value stop))
    (hfailure : ∀ failure failure',
      Agrees commits start (onFailure failure) (onFailure' failure')) :
    Agrees commits start (run.resume onSuccess onFailure)
      (classic.resume onSuccess' onFailure') := by
  cases h with
  | cutShort => exact .cutShort
  | success events events' value stop => exact (hsuccess value stop).after _ _
  | failure events events' failure failure' => exact (hfailure failure failure').after _ _
  | fault => exact .fault ..
  | committed events failure classic h => exact absurd h hcommits

/-- Where a failure at the start is passed over, so is any failure of the classic reading. -/
theorem retry {onSuccess onSuccess' : α → Nat → Run β} {refused refused' : Run β}
    (h : Agrees commits start run classic) (hretries : run.Retries commits start)
    (hsuccess : ∀ events value stop, run = some (events, .success value stop) →
      Agrees commits start (onSuccess value stop) (onSuccess' value stop))
    (hrefused : Agrees commits start refused refused') :
    Agrees commits start (run.retry start onSuccess refused)
      (classic.resume onSuccess' fun _ => refused') := by
  rw [Run.retry]
  cases h with
  | cutShort => exact .cutShort
  | success events events' value stop => exact (hsuccess events value stop rfl).after _ _
  | failure events events' failure failure' =>
    -- the classic reading goes on here, and so does the run unless it is excused
    simp only [Run.resume]
    rcases hretries with hposition | ⟨hcommits, hpast⟩
    · rw [if_pos hposition]
      exact hrefused.after _ _
    · rw [if_neg (Nat.ne_of_gt hpast), Run.after_done]
      exact .committed _ _ _ hcommits hpast
  | fault => exact .fault ..
  | committed events failure classic hcommits hpast =>
    rw [Run.resume]
    rw [if_neg (Nat.ne_of_gt hpast), Run.after_done]
    exact .committed _ _ _ hcommits hpast

/-- Without exceptions the outcomes agree as they are. -/
theorem outcome (h : Agrees commits start run classic) (hcommits : ¬ commits)
    {outcome outcome' : Outcome α} (hrun : run.outcome? = some outcome)
    (hclassic : classic.outcome? = some outcome') : outcome.Agrees outcome' := by
  cases h with
  | cutShort => cases hrun
  | success events events' value stop =>
    cases hrun
    cases hclassic
    exact ⟨rfl, rfl⟩
  | failure events events' failure failure' =>
    cases hrun
    cases hclassic
    trivial
  | fault events events' fault =>
    cases hrun
    cases hclassic
    rfl
  | committed events failure classic h => exact absurd h hcommits

end Run.Agrees

/-! ### Combinators -/

namespace Combinator

variable {commits : Prop} {body body' : Matching α} {input : List Char} {start : Nat}

theorem sequence_agrees {items items' : List (List α → Matching α)}
    (h : List.Forall₂ (fun item item' => ∀ previous start,
      Run.Agrees commits start (item previous input start) (item' previous input start))
      items items')
    (hforward : ∀ item ∈ items, ∀ previous start, (item previous input start).Ensures
      (fun _ stop => start ≤ stop) fun _ => True)
    (previous : List α) (start : Nat) :
    Run.Agrees commits start (sequence items previous input start)
      (sequence items' previous input start) := by
  induction h generalizing previous start with
  | nil => exact .refl _
  | cons hitem _ ih =>
    refine (hitem previous start).andThen (hforward _ (List.mem_cons_self ..) previous start) ?_
    exact fun value stop => ih (fun item hmem => hforward item (List.mem_cons_of_mem _ hmem)) _ stop

theorem choice_agrees {alternatives alternatives' : List (Matching α)}
    (h : List.Forall₂ (fun alternative alternative' =>
      Run.Agrees commits start (alternative input start) (alternative' input start))
      alternatives alternatives')
    (hretries : ∀ alternative ∈ alternatives.dropLast,
      (alternative input start).Retries commits start) :
    Run.Agrees commits start (choice alternatives input start)
      (Classic.choice alternatives' input start) := by
  induction h with
  | nil => exact .failure ..
  | @cons first first' others others' hfirst hothers ih =>
    rw [Classic.choice]
    cases hothers with
    | nil =>
      -- the last alternative decides, whatever its failure
      show Run.Agrees commits start (first input start) _
      generalize first input start = run at hfirst
      generalize first' input start = classic at hfirst
      cases hfirst with
      | cutShort => exact .cutShort
      | success => exact .success ..
      | failure => exact .failure ..
      | fault => exact .fault ..
      | committed events failure classic hcommits hpast => exact .committed _ _ _ hcommits hpast
    | cons hnext hothers =>
      rw [choice_eq_retry]
      refine hfirst.retry (hretries first (List.mem_cons_self ..)) (fun _ _ _ _ => .refl _) ?_
      exact ih fun alternative hmem => hretries alternative (List.mem_cons_of_mem _ hmem)

theorem optional_agrees
    (h : Run.Agrees commits start (body input start) (body' input start))
    (hretries : (body input start).Retries commits start) :
    Run.Agrees commits start (optional body input start) (Classic.optional body' input start) := by
  rw [optional_eq_retry]
  exact h.retry hretries (fun _ _ _ _ => .refl _) (.refl _)

theorem many_agrees
    (h : ∀ start, Run.Agrees commits start (body input start) (body' input start))
    (hforward : ∀ start, (body input start).Ensures (fun _ stop => start ≤ stop) fun _ => True)
    (hretries : ∀ start, (body input start).Retries commits start) (fuel start : Nat) :
    Run.Agrees commits start (many fuel body input start)
      (Classic.many fuel body' input start) := by
  induction fuel generalizing start with
  | zero => exact .cutShort
  | succ fuel ih =>
    rw [many_eq_retry]
    refine (h start).retry (hretries start) (fun events value stop hrun => ?_) (.refl _)
    split
    · exact .success ..
    · exact ((ih stop).earlier ((hforward start).success hrun)).mapValue _

theorem many1_agrees
    (h : ∀ start, Run.Agrees commits start (body input start) (body' input start))
    (hforward : ∀ start, (body input start).Ensures (fun _ stop => start ≤ stop) fun _ => True)
    (hretries : ∀ start, (body input start).Retries commits start) (fuel start : Nat) :
    Run.Agrees commits start (many1 fuel body input start)
      (Classic.many1 fuel body' input start) :=
  (h start).andThen (hforward start) fun _ stop =>
    (many_agrees h hforward hretries fuel stop).mapValue _

/-- Failures that are moved to the start agree with those that stay where they are. -/
theorem attempt_agrees (hcommits : ¬ commits)
    (h : Run.Agrees commits start (body input start) (body' input start)) :
    Run.Agrees commits start (attempt body input start) (body' input start) := by
  rw [attempt]
  generalize body input start = run at h
  generalize body' input start = classic at h
  cases h with
  | cutShort => exact .cutShort
  | success => exact .success ..
  | failure => exact .failure ..
  | fault => exact .fault ..
  | committed events failure classic h => exact absurd h hcommits

/-- An attempt only fails where it started. -/
theorem attempt_retries (commits : Prop) (body : Matching α) (input : List Char) (start : Nat) :
    (attempt body input start).Retries commits start := by
  rw [attempt]
  rcases body input start with - | ⟨events, ⟨value, stop⟩ | failure | fault⟩
  · trivial
  · trivial
  · exact .inl rfl
  · trivial

end Combinator

end Peg
