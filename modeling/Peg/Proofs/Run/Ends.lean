/-
Peg/Proofs/Run/Ends.lean

Runs that end: they are not cut short, and no operation is without a result.

A run ends when its parts do.  What follows a success only has to end for the
values and offsets that the success can have, which `Run.Ensures` tells.  The
repetition ends when every attempt either stays, and is the last one, or makes
a measure smaller; it needs more fuel than the measure at its start.  Once it
ends, more fuel makes no difference.
-/
import Peg.Proofs.Run.Below
import Peg.Proofs.Run.Ensures

namespace Peg

variable {α β : Type}

/-- A run that succeeds or fails. -/
inductive Run.Ends : Run α → Prop where
  | success (events : List Event) (value : α) (stop : Nat) :
      Ends (some (events, .success value stop))
  | failure (events : List Event) (failure : Failure) : Ends (some (events, .failure failure))

namespace Run.Ends

variable {run : Run α} {P : α → Nat → Prop} {Q : Failure → Prop}

theorem primitive {outcome : Outcome α} (h : (Run.done outcome).Ends) :
    (Run.primitive outcome).Ends := by
  cases outcome with
  | success value stop => exact .success _ _ _
  | failure failure => exact .failure _ _
  | fault fault => cases h

/-- A run that ends is what it is with more fuel. -/
theorem eq_of_below {other : Run α} (h : run.Ends) (hbelow : Run.Below run other) :
    other = run := by
  cases h with
  | success events value stop => exact hbelow.eq_some rfl
  | failure events failure => exact hbelow.eq_some rfl

theorem after (events : List Event) (h : run.Ends) : (run.after events).Ends := by
  cases h with
  | success later value stop => exact .success _ _ _
  | failure later failure => exact .failure _ _

theorem mapValue (f : α → β) (h : run.Ends) : (run.mapValue f).Ends := by
  cases h with
  | success events value stop => exact .success _ _ _
  | failure events failure => exact .failure _ _

theorem andThen {next : α → Nat → Run β} (h : run.Ends) (hrun : run.Ensures P Q)
    (hnext : ∀ value stop, P value stop → (next value stop).Ends) : (run.andThen next).Ends := by
  cases h with
  | success events value stop => exact (hnext value stop hrun).after events
  | failure events failure => exact .failure _ _

theorem resume {onSuccess : α → Nat → Run β} {onFailure : Failure → Run β} (h : run.Ends)
    (hsuccess : ∀ value stop, (onSuccess value stop).Ends)
    (hfailure : ∀ failure, (onFailure failure).Ends) : (run.resume onSuccess onFailure).Ends := by
  cases h with
  | success events value stop => exact (hsuccess value stop).after events
  | failure events failure => exact (hfailure failure).after events

end Run.Ends

/-! ### Combinators -/

namespace Combinator

variable {body : Matching α} {input : List Char} {start : Nat}

theorem sequence_ends {items : List (List α → Matching α)}
    (h : ∀ item ∈ items, ∀ previous start, (item previous input start).Ends) (previous : List α)
    (start : Nat) : (sequence items previous input start).Ends := by
  induction items generalizing previous start with
  | nil => exact .success _ _ _
  | cons item items ih =>
    refine (h item (List.mem_cons_self ..) previous start).andThen (.any _) fun value stop _ => ?_
    exact ih (fun item hmem => h item (List.mem_cons_of_mem _ hmem)) _ stop

theorem choice_ends {alternatives : List (Matching α)}
    (h : ∀ alternative ∈ alternatives, (alternative input start).Ends) :
    (choice alternatives input start).Ends := by
  induction alternatives with
  | nil => exact .failure _ _
  | cons first others ih =>
    have hfirst := h first (List.mem_cons_self ..)
    cases others with
    | nil => exact hfirst
    | cons next others =>
      have hothers := ih fun alternative hmem => h alternative (List.mem_cons_of_mem _ hmem)
      rw [choice]
      split
      · split
        · exact hothers.after _
        · exact .failure _ _
      · exact hfirst

theorem optional_ends (h : (body input start).Ends) : (optional body input start).Ends := by
  rw [optional]
  split
  · split
    · exact .success _ _ _
    · exact .failure _ _
  · exact h.mapValue some

theorem negative_ends (h : (body input start).Ends) : (negative body input start).Ends := by
  refine h.resume (fun _ _ => .failure _ _) fun _ => ?_
  split
  · exact .success _ _ _
  · exact .failure _ _

theorem look_ends (h : (body input start).Ends) : (look body input start).Ends :=
  h.resume (fun _ _ => .success _ _ _) fun _ => .failure _ _

theorem attempt_ends (h : (body input start).Ends) : (attempt body input start).Ends := by
  unfold attempt
  generalize body input start = run at h
  cases h with
  | success events value stop => exact .success _ _ _
  | failure events failure => exact .failure _ _

/-- Backward matching ends when no more is read than there is before the start. -/
theorem backtrack_ends
    (h : ∀ passed, Text.takeBytes? input start = some passed → (body passed.reverse 0).Ends ∧
      (body passed.reverse 0).Ensures (fun _ length => length ≤ start) fun _ => True) :
    (backtrack body input start).Ends := by
  unfold backtrack
  split
  · exact .failure _ _
  · rename_i passed hpassed
    obtain ⟨hends, hlength⟩ := h passed hpassed
    generalize body passed.reverse 0 = run at hends hlength
    cases hends with
    | success events value length =>
      have hle : length ≤ start := hlength
      simp only [Run.resume, if_pos hle]
      exact .success _ _ _
    | failure events failure => exact .failure _ _

theorem many_ends {fuel : Nat} {I : Nat → Prop} {f : Nat → Nat}
    (hbody : ∀ start, I start → (body input start).Ends)
    (hstep : ∀ start, I start → (body input start).Ensures
      (fun _ stop => stop = start ∨ I stop ∧ f stop < f start) fun _ => True)
    (hstart : I start) (hfuel : f start < fuel) : (many fuel body input start).Ends := by
  induction fuel generalizing start with
  | zero => omega
  | succ fuel ih =>
    have hends := hbody start hstart
    have hnext := hstep start hstart
    unfold many
    generalize body input start = run at hends hnext
    cases hends with
    | success events value stop =>
      dsimp only
      split
      · exact .success _ _ _
      · rename_i hmoved
        -- the measure is smaller where the next attempt starts, and so is the fuel
        obtain ⟨hstop, hless⟩ := hnext.resolve_left hmoved
        exact ((ih hstop (by omega)).mapValue _).after events
    | failure events failure =>
      dsimp only
      split
      · exact .success _ _ _
      · exact .failure _ _

/-- A repetition that ends does the same with any fuel it ends with. -/
theorem many_eq_of_ends {fuel fuel' : Nat} (h : (many fuel body input start).Ends)
    (h' : (many fuel' body input start).Ends) :
    many fuel body input start = many fuel' body input start := by
  have hbelow := fun {one other : Nat} (hle : one ≤ other) =>
    many_below hle (fun input start => Run.Below.refl (body input start)) input start
  rcases Nat.le_total fuel fuel' with hle | hle
  · exact (h.eq_of_below (hbelow hle)).symm
  · exact h'.eq_of_below (hbelow hle)

end Combinator

end Peg
