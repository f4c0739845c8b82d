/-
Peg/Proofs/Run/Faults.lean

Where faults come from.

No combinator recovers from a fault, and all but one only pass on the faults
of their bodies.  The backward match is the one that adds a fault of its own,
when it is told that more was read than there is.

`Run.FaultsOnly P run` says that a fault of the run, if it has one, satisfies
`P`.  It says nothing of other endings, so what follows a success has to
satisfy it for every value and every offset.
-/
import Peg.Proofs.Run.Retry
import Peg.Proofs.Text.Boundary

namespace Peg

open Text

variable {α β : Type} {P : Fault → Prop}

/-- A run whose fault, if it has one, is of some kind. -/
def Run.FaultsOnly (P : Fault → Prop) (run : Run α) : Prop :=
  ∀ events fault, run = some (events, .fault fault) → P fault

namespace Run.FaultsOnly

variable {run : Run α}

/-- A run that is cut short has no fault. -/
theorem of_none : FaultsOnly P (none : Run α) := fun _ _ h => by
  cases h

theorem success (events : List Event) (value : α) (stop : Nat) :
    FaultsOnly P (some (events, .success value stop)) := fun _ _ h => by
  cases h

theorem failure (events : List Event) (failure : Failure) :
    FaultsOnly P (some (events, .failure failure) : Run α) := fun _ _ h => by
  cases h

theorem fault (events : List Event) {fault : Fault} (h : P fault) :
    FaultsOnly P (some (events, .fault fault) : Run α) := fun _ _ hrun => by
  cases hrun
  exact h

/-- Events before a run do not matter. -/
theorem after (events : List Event) (h : run.FaultsOnly P) : (run.after events).FaultsOnly P := by
  rcases run with - | ⟨later, ⟨value, stop⟩ | failure | fault⟩
  · exact of_none
  · exact .success _ _ _
  · exact .failure _ _
  · exact .fault _ (h _ _ rfl)

theorem mapValue (f : α → β) (h : run.FaultsOnly P) : (run.mapValue f).FaultsOnly P := by
  rcases run with - | ⟨events, ⟨value, stop⟩ | failure | fault⟩
  · exact of_none
  · exact .success _ _ _
  · exact .failure _ _
  · exact .fault _ (h _ _ rfl)

/-- What follows a success may add faults of the same kind. -/
theorem andThen {next : α → Nat → Run β} (h : run.FaultsOnly P)
    (hnext : ∀ value stop, (next value stop).FaultsOnly P) : (run.andThen next).FaultsOnly P := by
  rcases run with - | ⟨events, ⟨value, stop⟩ | failure | fault⟩
  · exact of_none
  · exact (hnext value stop).after events
  · exact .failure _ _
  · exact .fault _ (h _ _ rfl)

/-- What follows a success is only asked for where there is one. -/
theorem resume {onSuccess : α → Nat → Run β} {onFailure : Failure → Run β} (h : run.FaultsOnly P)
    (hsuccess : ∀ events value stop, run = some (events, .success value stop) →
      (onSuccess value stop).FaultsOnly P)
    (hfailure : ∀ failure, (onFailure failure).FaultsOnly P) :
    (run.resume onSuccess onFailure).FaultsOnly P := by
  rcases run with - | ⟨events, ⟨value, stop⟩ | failure | fault⟩
  · exact of_none
  · exact (hsuccess events value stop rfl).after events
  · exact (hfailure failure).after events
  · exact .fault _ (h _ _ rfl)

/-- So may what is tried after a failure. -/
theorem retry {start : Nat} {onSuccess : α → Nat → Run β} {refused : Run β}
    (h : run.FaultsOnly P) (hsuccess : ∀ value stop, (onSuccess value stop).FaultsOnly P)
    (hrefused : refused.FaultsOnly P) : (run.retry start onSuccess refused).FaultsOnly P := by
  refine h.resume (fun _ value stop _ => hsuccess value stop) fun failure => ?_
  split
  · exact hrefused
  · exact .failure _ _

end Run.FaultsOnly

/-! ### Combinators -/

namespace Combinator

variable {body : Matching α} {input : List Char} {start : Nat}

theorem sequence_faults {items : List (List α → Matching α)}
    (h : ∀ item ∈ items, ∀ previous input start, (item previous input start).FaultsOnly P)
    (previous : List α) : (sequence items previous input start).FaultsOnly P := by
  induction items generalizing previous start with
  | nil => exact .success _ _ _
  | cons item items ih =>
    refine (h item (List.mem_cons_self ..) previous input start).andThen fun value stop => ?_
    exact ih (fun item hmem => h item (List.mem_cons_of_mem _ hmem)) _

theorem choice_faults {alternatives : List (Matching α)}
    (h : ∀ alternative ∈ alternatives, (alternative input start).FaultsOnly P) :
    (choice alternatives input start).FaultsOnly P := by
  induction alternatives with
  | nil => exact .failure _ _
  | cons first others ih =>
    have hfirst := h first (List.mem_cons_self ..)
    cases others with
    | nil => exact hfirst
    | cons next others =>
      rw [choice_eq_retry]
      exact hfirst.retry (fun _ _ => .success _ _ _)
        (ih fun alternative hmem => h alternative (List.mem_cons_of_mem _ hmem))

theorem optional_faults (h : (body input start).FaultsOnly P) :
    (optional body input start).FaultsOnly P := by
  rw [optional_eq_retry]
  exact h.retry (fun _ _ => .success _ _ _) (.success _ _ _)

/-- A repetition has the faults of its attempts. -/
theorem many_faults (h : ∀ start, (body input start).FaultsOnly P) (fuel : Nat) :
    (many fuel body input start).FaultsOnly P := by
  induction fuel generalizing start with
  | zero => exact .of_none
  | succ fuel ih =>
    rw [many_eq_retry]
    refine (h start).retry (fun value stop => ?_) (.success _ _ _)
    split
    · exact .success _ _ _
    · exact ih.mapValue _

theorem negative_faults (h : (body input start).FaultsOnly P) :
    (negative body input start).FaultsOnly P := by
  refine h.resume (fun _ _ _ _ => .failure _ _) fun _ => ?_
  split
  · exact .success _ _ _
  · exact .failure _ _

theorem look_faults (h : (body input start).FaultsOnly P) :
    (look body input start).FaultsOnly P :=
  h.resume (fun _ _ _ _ => .success _ _ _) fun _ => .failure _ _

theorem attempt_faults (h : (body input start).FaultsOnly P) :
    (attempt body input start).FaultsOnly P := by
  rw [attempt]
  generalize body input start = run at h
  rcases run with - | ⟨events, ⟨value, stop⟩ | failure | fault⟩
  · exact .of_none
  · exact .success _ _ _
  · exact .failure _ _
  · exact .fault _ (h _ _ rfl)

/-- The fault that a backward match adds says how much there was to read and how much is said to
have been read. -/
theorem backtrack_faults (h : ∀ text, (body text 0).FaultsOnly P)
    (hlong : ∀ text events value length, body text 0 = some (events, .success value length) →
      size text < length → P (.beforeBeginning (size text) length)) :
    (backtrack body input start).FaultsOnly P := by
  rw [backtrack]
  rcases hpassed : takeBytes? input start with - | passed
  · exact .failure _ _
  · refine (h passed.reverse).resume (fun events value length hrun => ?_) fun _ => .failure _ _
    obtain ⟨rest, -, rfl⟩ := takeBytes?_eq_some_iff.1 hpassed
    split
    · exact .success _ _ _
    · rename_i hle
      have hfault := hlong passed.reverse events value length hrun
      rw [size_reverse] at hfault
      exact .fault _ (hfault (by omega))

end Combinator

end Peg
