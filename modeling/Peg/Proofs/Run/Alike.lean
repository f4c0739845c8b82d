/-
Peg/Proofs/Run/Alike.lean

Runs that end alike.

Two runs are alike when both are cut short or both end in the same way: in
values that are related, at offsets that are a constant apart, or with the
same thing expected at positions that are.  What happened on the way is not
compared.

    Run.Alike same shift run other

The relation of the values is a parameter, and so is the distance of the
offsets.  This covers the same text at another place, another way to build
the values, and another way to say the same thing.  One lemma for each way to
put runs together is enough for all of them.

Offsets only matter to combinators in comparisons with where an attempt
started, and these are the same on both sides.  The text itself matters where
characters are read: it has to be the same from the offset on
(`Text.Aligned`).
-/
import Mathlib.Data.List.Forall2
import Peg.Program.Run
import Peg.Proofs.Run.Ensures
import Peg.Proofs.Run.Retry
import Peg.Proofs.Text.Offset

namespace Peg

open Text

variable {α α' β β' : Type}

/-! ### Texts -/

/-- A text continues like another one, a number of bytes further on. -/
def Text.Aligned (shift : Nat) (input input' : List Char) : Prop :=
  ∀ n, dropBytes? input' (shift + n) = dropBytes? input n

namespace Text.Aligned

variable {shift : Nat} {input input' : List Char}

/-- A text is aligned with itself. -/
theorem self (input : List Char) : Aligned 0 input input := fun n => by
  rw [Nat.zero_add]

/-- What precedes a text moves its offsets. -/
theorem append (passed rest : List Char) : Aligned (size passed) rest (passed ++ rest) := by
  intro n
  refine Option.ext fun left => ?_
  simp only [dropBytes?_eq_some_iff]
  constructor
  · rintro ⟨all, hcut, hsize⟩
    -- the longer beginning goes on where the shorter one ends
    rcases List.append_eq_append_iff.1 hcut with ⟨later, rfl, rfl⟩ | ⟨later, rfl, rfl⟩
    · rw [size_append, Nat.add_left_cancel_iff] at hsize
      exact ⟨later, rfl, hsize⟩
    · rw [size_append] at hsize
      obtain rfl : later = [] := size_eq_zero_iff.1 (by omega)
      exact ⟨[], rfl, by simpa using hsize⟩
  · rintro ⟨all, rfl, rfl⟩
    exact ⟨passed ++ all, by rw [List.append_assoc], by rw [size_append]⟩

/-- The same is written between offsets that are moved alike. -/
theorem slice (h : Aligned shift input input') (start stop : Nat) :
    slice? input' (shift + start) (shift + stop) = slice? input start stop := by
  simp only [slice?, h start, Nat.add_le_add_iff_left, Nat.add_sub_add_left]

end Text.Aligned

/-! ### Runs -/

/-- Two runs that are cut short, or end in related values or the same failure a number of bytes
apart, or in the same fault. -/
inductive Run.Alike (same : α → α' → Prop) (shift : Nat) : Run α → Run α' → Prop
  | cutShort : Alike same shift none none
  | success (events events' : List Event) {value : α} {value' : α'} (stop : Nat)
      (hvalue : same value value') :
      Alike same shift (some (events, .success value stop))
        (some (events', .success value' (shift + stop)))
  | failure (events events' : List Event) (expected : String) (position : Nat) :
      Alike same shift (some (events, .failure ⟨expected, position⟩))
        (some (events', .failure ⟨expected, shift + position⟩))
  | fault (events events' : List Event) (fault : Fault) :
      Alike same shift (some (events, .fault fault)) (some (events', .fault fault))

/-- Related lists are the images of each other. -/
theorem map_eq_of_forall₂ {f : α → β} {values : List α} {values' : List β}
    (h : List.Forall₂ (fun value value' => f value = value') values values') :
    values.map f = values' := by
  rw [← List.forall₂_eq_eq_eq, List.forall₂_map_left_iff]
  exact h

namespace Run.Alike

variable {same : α → α' → Prop} {same' : β → β' → Prop} {shift start : Nat}
variable {run : Run α} {other : Run α'}

/-- Successes at the same offset. -/
theorem success_here (events events' : List Event) {value : α} {value' : α'} (stop : Nat)
    (hvalue : same value value') :
    Alike same 0 (some (events, .success value stop)) (some (events', .success value' stop)) := by
  have h : Alike same 0 _ (some (events', .success value' (0 + stop))) :=
    .success events events' stop hvalue
  rwa [Nat.zero_add] at h

/-- The same failure. -/
theorem failure_here (events events' : List Event) (failure : Failure) :
    Alike same 0 (some (events, .failure failure)) (some (events', .failure failure)) := by
  have h : Alike same 0 _ (some (events', .failure ⟨failure.expected, 0 + failure.position⟩)) :=
    .failure events events' failure.expected failure.position
  rwa [Nat.zero_add] at h

/-- Every run is like itself. -/
theorem refl (run : Run α) : Alike Eq 0 run run := by
  rcases run with - | ⟨events, ⟨value, stop⟩ | failure | fault⟩
  · exact .cutShort
  · exact .success_here _ _ _ rfl
  · exact .failure_here ..
  · exact .fault ..

/-- In the same place nothing but the values differs. -/
theorem outcome_map {f : α → α'} (h : Alike (fun value value' => value' = f value) 0 run other) :
    other.outcome? = run.outcome?.map (Outcome.map f) := by
  cases h with
  | cutShort => rfl
  | success events events' stop hvalue =>
    rw [Run.outcome?, Option.map_some, hvalue, Nat.zero_add]
    rfl
  | failure events events' expected position =>
    rw [Run.outcome?, Option.map_some, Nat.zero_add]
    rfl
  | fault => rfl

/-- With equal values nothing does. -/
theorem outcome_eq {other : Run α} (h : Alike Eq 0 run other) :
    other.outcome? = run.outcome? := by
  cases h with
  | cutShort => rfl
  | success events events' stop hvalue =>
    rw [hvalue, Nat.zero_add]
    rfl
  | failure events events' expected position =>
    rw [Nat.zero_add]
    rfl
  | fault => rfl

/-- Runs whose values are related are alike for every weaker relation. -/
theorem mono {weaker : α → α' → Prop} (h : Alike same shift run other)
    (hsame : ∀ value value', same value value' → weaker value value') :
    Alike weaker shift run other := by
  cases h with
  | cutShort => exact .cutShort
  | success events events' stop hvalue => exact .success _ _ _ (hsame _ _ hvalue)
  | failure => exact .failure ..
  | fault => exact .fault ..

/-- Events before runs may differ. -/
theorem after (events events' : List Event) (h : Alike same shift run other) :
    Alike same shift (run.after events) (other.after events') := by
  cases h with
  | cutShort => exact .cutShort
  | success later later' stop hvalue => exact .success _ _ _ hvalue
  | failure => exact .failure ..
  | fault => exact .fault ..

/-- Values that are changed alike stay related. -/
theorem mapValue {f : α → β} {f' : α' → β'} (h : Alike same shift run other)
    (hsame : ∀ value value', same value value' → same' (f value) (f' value')) :
    Alike same' shift (run.mapValue f) (other.mapValue f') := by
  cases h with
  | cutShort => exact .cutShort
  | success events events' stop hvalue => exact .success _ _ _ (hsame _ _ hvalue)
  | failure => exact .failure ..
  | fault => exact .fault ..

/-- What follows a success on one side only does not move. -/
theorem andThen_left {same' : β → α' → Prop} {next : α → Nat → Run β}
    (h : Alike same shift run other)
    (hnext : ∀ value value' stop, same value value' →
      Alike same' shift (next value stop) (.done (.success value' (shift + stop)))) :
    Alike same' shift (run.andThen next) other := by
  cases h with
  | cutShort => exact .cutShort
  | success events events' stop hvalue =>
    have hlater := (hnext _ _ stop hvalue).after events events'
    rwa [Run.after_done] at hlater
  | failure => exact .failure ..
  | fault => exact .fault ..

/-- Nor does what follows it on the other side only. -/
theorem andThen_right {same' : α → β' → Prop} {next : α' → Nat → Run β'}
    (h : Alike same shift run other)
    (hnext : ∀ value value' stop, same value value' →
      Alike same' shift (.done (.success value stop)) (next value' (shift + stop))) :
    Alike same' shift run (other.andThen next) := by
  cases h with
  | cutShort => exact .cutShort
  | success events events' stop hvalue =>
    have hlater := (hnext _ _ stop hvalue).after events events'
    rwa [Run.after_done] at hlater
  | failure => exact .failure ..
  | fault => exact .fault ..

/-- What follows a success may use what is known of it. -/
theorem andThen_ensures {P : α → Nat → Prop} {Q : Failure → Prop} {next : α → Nat → Run β}
    {next' : α' → Nat → Run β'} (h : Alike same shift run other) (hrun : run.Ensures P Q)
    (hnext : ∀ value value' stop, same value value' → P value stop →
      Alike same' shift (next value stop) (next' value' (shift + stop))) :
    Alike same' shift (run.andThen next) (other.andThen next') := by
  cases h with
  | cutShort => exact .cutShort
  | success events events' stop hvalue => exact (hnext _ _ stop hvalue hrun).after _ _
  | failure => exact .failure ..
  | fault => exact .fault ..

/-- Runs are alike if they go on alike after a success. -/
theorem andThen {next : α → Nat → Run β} {next' : α' → Nat → Run β'}
    (h : Alike same shift run other)
    (hnext : ∀ value value' stop, same value value' →
      Alike same' shift (next value stop) (next' value' (shift + stop))) :
    Alike same' shift (run.andThen next) (other.andThen next') :=
  h.andThen_ensures (.any run) fun value value' stop hvalue _ => hnext value value' stop hvalue

/-- They may go on after a failure, too, if they do so alike. -/
theorem resume {onSuccess : α → Nat → Run β} {onSuccess' : α' → Nat → Run β'}
    {onFailure onFailure' : Failure → Run _} (h : Alike same shift run other)
    (hsuccess : ∀ value value' stop, same value value' →
      Alike same' shift (onSuccess value stop) (onSuccess' value' (shift + stop)))
    (hfailure : ∀ expected position,
      Alike same' shift (onFailure ⟨expected, position⟩)
        (onFailure' ⟨expected, shift + position⟩)) :
    Alike same' shift (run.resume onSuccess onFailure) (other.resume onSuccess' onFailure') := by
  cases h with
  | cutShort => exact .cutShort
  | success events events' stop hvalue => exact (hsuccess _ _ stop hvalue).after _ _
  | failure events events' expected position => exact (hfailure expected position).after _ _
  | fault => exact .fault ..

/-- A failure where the attempt started is one on the other side as well. -/
theorem retry {onSuccess : α → Nat → Run β} {onSuccess' : α' → Nat → Run β'}
    {refused : Run β} {refused' : Run β'} (h : Alike same shift run other)
    (hsuccess : ∀ value value' stop, same value value' →
      Alike same' shift (onSuccess value stop) (onSuccess' value' (shift + stop)))
    (hrefused : Alike same' shift refused refused') :
    Alike same' shift (run.retry start onSuccess refused)
      (other.retry (shift + start) onSuccess' refused') := by
  refine h.resume hsuccess fun expected position => ?_
  simp only [Nat.add_left_cancel_iff]
  split
  · exact hrefused
  · exact .failure ..

end Run.Alike

/-! ### Primitive matchers -/

namespace Primitive

variable {shift : Nat} {input input' : List Char}

/-- A literal is found in both texts or in neither. -/
theorem literal_alike (h : Aligned shift input input') (string : String) (start : Nat) :
    Run.Alike Eq shift (Run.primitive (literal string input start))
      (Run.primitive (literal string input' (shift + start))) := by
  rw [literal, literal, h start]
  split
  · rw [Nat.add_assoc]
    exact .success _ _ _ rfl
  · exact .failure ..

/-- Any character is read alike. -/
theorem anyChar_alike (h : Aligned shift input input') (start : Nat) :
    Run.Alike Eq shift (Run.primitive (anyChar input start))
      (Run.primitive (anyChar input' (shift + start))) := by
  rw [anyChar, anyChar, h start]
  split
  · rw [Nat.add_assoc]
    exact .success _ _ _ rfl
  · exact .failure ..

/-- A regular expression reads what comes next only, so it finds the same in both texts. -/
theorem regex_alike (h : Aligned shift input input') (expression : Regex) (description : String)
    (start : Nat) :
    Run.Alike Eq shift (Run.primitive (regex expression description input start))
      (Run.primitive (regex expression description input' (shift + start))) := by
  rw [regex, regex, h start]
  split
  · exact .failure ..
  · split
    · exact .failure ..
    · rw [Nat.add_assoc]
      exact .success _ _ _ rfl

/-- White space is skipped up to the same place. -/
theorem skipBlank_aligned (h : Aligned shift input input') (start : Nat) :
    skipBlank input' (shift + start) = shift + skipBlank input start := by
  rw [skipBlank, skipBlank, h start]
  split
  · rw [Nat.add_assoc]
  · rfl

end Primitive

/-! ### Combinators -/

namespace Combinator

variable {same : α → α' → Prop} {shift : Nat} {input input' : List Char}
variable {body : Matching α} {body' : Matching α'}

/-- Sequences are alike if their items are, given captures that are related. -/
theorem sequence_alike {items : List (List α → Matching α)} {items' : List (List α' → Matching α')}
    (h : List.Forall₂ (fun item item' => ∀ previous previous', List.Forall₂ same previous previous' →
      ∀ start, Run.Alike same shift (item previous input start)
        (item' previous' input' (shift + start))) items items')
    {previous : List α} {previous' : List α'} (hprevious : List.Forall₂ same previous previous')
    (start : Nat) :
    Run.Alike (List.Forall₂ same) shift (sequence items previous input start)
      (sequence items' previous' input' (shift + start)) := by
  induction h generalizing previous previous' start with
  | nil => exact .success _ _ _ hprevious
  | cons hitem _ ih =>
    refine (hitem previous previous' hprevious start).andThen fun value value' stop hvalue => ?_
    exact ih (List.rel_append hprevious (.cons hvalue .nil)) stop

/-- Choices are alike if their alternatives are, one by one. -/
theorem choice_alike {alternatives : List (Matching α)} {alternatives' : List (Matching α')}
    {start : Nat}
    (h : List.Forall₂ (fun alternative alternative' =>
      Run.Alike same shift (alternative input start) (alternative' input' (shift + start)))
      alternatives alternatives') :
    Run.Alike same shift (choice alternatives input start)
      (choice alternatives' input' (shift + start)) := by
  induction h with
  | nil => exact .failure ..
  | cons hfirst hothers ih =>
    cases hothers with
    | nil => exact hfirst
    | cons hnext hothers =>
      rw [choice_eq_retry, choice_eq_retry]
      exact hfirst.retry (fun _ _ _ hvalue => .success _ _ _ hvalue) ih

theorem optional_alike {start : Nat}
    (h : Run.Alike same shift (body input start) (body' input' (shift + start))) :
    Run.Alike (Option.Rel same) shift (optional body input start)
      (optional body' input' (shift + start)) := by
  rw [optional_eq_retry, optional_eq_retry]
  exact h.retry (fun _ _ _ hvalue => .success _ _ _ (.some hvalue)) (.success _ _ _ .none)

/-- Repetitions are alike with any fuel, as their attempts stay at the same offsets. -/
theorem many_alike
    (h : ∀ start, Run.Alike same shift (body input start) (body' input' (shift + start)))
    (fuel start : Nat) :
    Run.Alike (List.Forall₂ same) shift (many fuel body input start)
      (many fuel body' input' (shift + start)) := by
  induction fuel generalizing start with
  | zero => exact .cutShort
  | succ fuel ih =>
    rw [many_eq_retry, many_eq_retry]
    refine (h start).retry (fun value value' stop hvalue => ?_) (.success _ _ _ .nil)
    simp only [Nat.add_left_cancel_iff]
    split
    · exact .success _ _ _ .nil
    · exact (ih stop).mapValue fun _ _ hvalues => .cons hvalue hvalues

theorem many1_alike
    (h : ∀ start, Run.Alike same shift (body input start) (body' input' (shift + start)))
    (fuel start : Nat) :
    Run.Alike (List.Forall₂ same) shift (many1 fuel body input start)
      (many1 fuel body' input' (shift + start)) :=
  (h start).andThen fun _ _ stop hfirst =>
    (many_alike h fuel stop).mapValue fun _ _ hvalues => .cons hfirst hvalues

/-- A negative match gives the character it reads, so its values are equal. -/
theorem negative_alike (htext : Aligned shift input input') {start : Nat}
    (h : Run.Alike same shift (body input start) (body' input' (shift + start))) :
    Run.Alike Eq shift (negative body input start) (negative body' input' (shift + start)) := by
  refine h.resume (fun _ _ _ _ => .failure ..) fun _ _ => ?_
  rw [htext start]
  split
  · rw [Nat.add_assoc]
    exact .success _ _ _ rfl
  · exact .failure ..

theorem look_alike {start : Nat}
    (h : Run.Alike same shift (body input start) (body' input' (shift + start))) :
    Run.Alike same shift (look body input start) (look body' input' (shift + start)) :=
  h.resume (fun _ _ _ hvalue => .success _ _ _ hvalue) fun _ _ => .failure ..

theorem attempt_alike {start : Nat}
    (h : Run.Alike same shift (body input start) (body' input' (shift + start))) :
    Run.Alike same shift (attempt body input start) (attempt body' input' (shift + start)) := by
  rw [attempt, attempt]
  generalize body input start = run at h
  generalize body' input' (shift + start) = other at h
  cases h with
  | cutShort => exact .cutShort
  | success events events' stop hvalue => exact .success _ _ _ hvalue
  | failure => exact .failure ..
  | fault => exact .fault ..

/-- What is read backward is the same text on both sides. -/
theorem backtrack_alike {start : Nat}
    (h : ∀ passed, takeBytes? input start = some passed →
      Run.Alike same 0 (body passed.reverse 0) (body' passed.reverse 0)) :
    Run.Alike same 0 (backtrack body input start) (backtrack body' input start) := by
  unfold backtrack
  split
  · exact .failure_here ..
  · rename_i passed hpassed
    refine (h passed hpassed).resume (fun value value' length hvalue => ?_)
      fun _ _ => .failure_here ..
    rw [Nat.zero_add]
    split
    · exact .success_here _ _ _ hvalue
    · exact .fault ..

end Combinator

/-! ### Rules -/

/-- A rule ends like its alternatives; a template skips the blanks after them. -/
theorem Program.matchRule_alike {program : Program} {step : Program.Step} {id : Nat}
    {param : Option String} {rule : CompiledRule} (hrule : program.rules[id]? = some rule)
    {same : Value → α' → Prop} {input : List Char} {start : Nat} {other : Run α'}
    (h : Run.Alike same 0 (Combinator.choice (rule.alternatives.map fun alternative =>
      matchAlternative step alternative param) input start) other) :
    Run.Alike same 0 (program.matchRule step id param input start)
      (if rule.skipsBlank then
        other.andThen fun value stop => .done (.success value (Primitive.skipBlank input stop))
      else other) := by
  simp only [matchRule, hrule]
  generalize Combinator.choice _ input start = run at h
  cases h with
  | cutShort => cases rule.skipsBlank <;> exact .cutShort
  | success events events' stop hvalue =>
    simp only [finishRule, Nat.zero_add]
    cases rule.skipsBlank <;> exact .success_here _ _ _ hvalue
  | failure => cases rule.skipsBlank <;> exact .failure ..
  | fault => cases rule.skipsBlank <;> exact .fault ..

/-- Two rules end alike if their alternatives do: the blanks after templates are skipped in both
texts, from offsets that correspond. -/
theorem Program.rules_alike {program program' : Program} {step step' : Program.Step} {id id' : Nat}
    {param param' : Option String} {rule rule' : CompiledRule} {same : Value → Value → Prop}
    {shift start : Nat} {input input' : List Char} (htext : Aligned shift input input')
    (hrule : program.rules[id]? = some rule) (hrule' : program'.rules[id']? = some rule')
    (hskips : rule'.skipsBlank = rule.skipsBlank)
    (h : List.Forall₂ (fun alternative alternative' =>
      Run.Alike same shift (matchAlternative step alternative param input start)
        (matchAlternative step' alternative' param' input' (shift + start)))
      rule.alternatives rule'.alternatives) :
    Run.Alike same shift (program.matchRule step id param input start)
      (program'.matchRule step' id' param' input' (shift + start)) := by
  have hchoice : Run.Alike same shift
      (Combinator.choice (rule.alternatives.map fun alternative =>
        matchAlternative step alternative param) input start)
      (Combinator.choice (rule'.alternatives.map fun alternative =>
        matchAlternative step' alternative param') input' (shift + start)) := by
    refine Combinator.choice_alike ?_
    rwa [List.forall₂_map_left_iff, List.forall₂_map_right_iff]
  simp only [matchRule, hrule, hrule']
  generalize Combinator.choice _ input start = run at hchoice
  generalize Combinator.choice _ input' (shift + start) = other at hchoice
  cases hchoice with
  | cutShort => exact .cutShort
  | success events events' stop hvalue =>
    simp only [finishRule, hskips, Primitive.skipBlank_aligned htext]
    split
    · exact .success _ _ _ hvalue
    · exact .success _ _ _ hvalue
  | failure => exact .failure ..
  | fault => exact .fault ..

end Peg
