/-
Peg/Proofs/Run/Repetition.lean

A repetition is a chain of matches that cannot be made longer.

`Advances body input start values last` is a chain: matches of the body one
after the other, each from where the one before has ended and each ending
further on.  A repetition runs along a chain (`outcome?_many_of_advances`) and
ends like its body does where the chain does: it succeeds where the body fails
on the spot or matches nothing, and it fails where the body fails elsewhere.

The body is any matching at all whose successes do not go back and stay within
the text.  It may fail anywhere, before the offset it started at too.  Since
every link of a chain is at least a byte long, there is a longest chain, and
one more round than the text has bytes is enough to reach its end.

For a choice the same question is which alternative decides it (`Decides`).
-/
import Mathlib.Tactic.IntervalCases
import Peg.Primitive
import Peg.Proofs.Run.Ends
import Peg.Proofs.Run.Outcome
import Peg.Proofs.Run.Retry

namespace Peg

open Text

namespace Combinator

variable {α : Type} {body : Matching α} {input : List Char} {start stop last : Nat}
variable {values : List α}

/-! ### Chains -/

/-- Matches one after the other, each of which advances: what they give and where the last of
them ends. -/
inductive Advances (body : Matching α) (input : List Char) : Nat → List α → Nat → Prop where
  | refl (start : Nat) : Advances body input start [] start
  | step {start stop last : Nat} {value : α} {values : List α}
      (h : (body input start).outcome? = some (.success value stop)) (hlt : start < stop)
      (hothers : Advances body input stop values last) :
      Advances body input start (value :: values) last

/-- There is no further match: the body fails on the spot or succeeds without advancing. -/
def Exhausted (body : Matching α) (input : List Char) (last : Nat) : Prop :=
  (∃ expected, (body input last).outcome? = some (.failure ⟨expected, last⟩)) ∨
    ∃ value, (body input last).outcome? = some (.success value last)

/-- From any offset between a start and the end of the text, successes end between that offset
and the end of the text. -/
def Bounded (body : Matching α) (input : List Char) (start : Nat) : Prop :=
  ∀ offset value stop, start ≤ offset → offset ≤ size input →
    (body input offset).outcome? = some (.success value stop) → offset ≤ stop ∧ stop ≤ size input

/-- A body that is bounded from an offset on is bounded from every later one on. -/
theorem Bounded.later (h : Bounded body input start) (hle : start ≤ stop) :
    Bounded body input stop :=
  fun offset value stop hoffset => h offset value stop (Nat.le_trans hle hoffset)

/-- Every link of a chain is at least a byte long. -/
theorem Advances.add_length_le (h : Advances body input start values last) :
    start + values.length ≤ last := by
  induction h with
  | refl start => exact Nat.le_refl start
  | step h hlt hothers ih =>
    rw [List.length_cons]
    omega

/-- A chain stays within the text. -/
theorem Advances.le_size (h : Advances body input start values last)
    (hbody : Bounded body input start) (hstart : start ≤ size input) : last ≤ size input := by
  induction h with
  | refl start => exact hstart
  | step h hlt hothers ih =>
    obtain ⟨-, hstop⟩ := hbody _ _ _ (Nat.le_refl _) hstart h
    exact ih (hbody.later (Nat.le_of_lt hlt)) hstop

/-- A chain that cannot be made longer. -/
theorem exists_advances (hbody : Bounded body input start) (hstart : start ≤ size input) :
    ∃ values last, Advances body input start values last ∧ last ≤ size input ∧
      ∀ value stop, (body input last).outcome? = some (.success value stop) → stop = last := by
  -- the induction is on what is left of the text
  induction hleft : size input - start using Nat.strongRecOn generalizing start with
  | ind left ih =>
    by_cases hadvance : ∃ value stop,
      (body input start).outcome? = some (.success value stop) ∧ stop ≠ start
    · obtain ⟨value, stop, h, hne⟩ := hadvance
      obtain ⟨hle, hstop⟩ := hbody start value stop (Nat.le_refl _) hstart h
      have hlt : start < stop := Nat.lt_of_le_of_ne hle (Ne.symm hne)
      obtain ⟨values, last, hchain, hlast⟩ :=
        ih (size input - stop) (by omega) (hbody.later hle) hstop rfl
      exact ⟨value :: values, last, .step h hlt hchain, hlast⟩
    · refine ⟨[], start, .refl start, hstart, fun value stop h => ?_⟩
      by_contra hne
      exact hadvance ⟨value, stop, h, hne⟩

/-! ### Repetitions along chains -/

/-- A repetition goes along a chain and on from its end. -/
theorem outcome?_many_of_advances (h : Advances body input start values last) (fuel : Nat) :
    (many (fuel + values.length) body input start).outcome? =
      (many fuel body input last).outcome?.map (Outcome.map (values ++ ·)) := by
  induction h with
  | refl start =>
    have hid : Outcome.map (([] : List α) ++ ·) = id := by
      funext outcome
      cases outcome <;> rfl
    rw [hid, Option.map_id]
    rfl
  | step h hlt hothers ih =>
    rename_i start stop last value values
    obtain ⟨events, h⟩ := Run.outcome?_eq_some h
    have hmap : Outcome.map (value :: values ++ ·) =
        Outcome.map (value :: ·) ∘ Outcome.map (values ++ ·) := by
      funext outcome
      cases outcome <;> rfl
    rw [List.length_cons, ← Nat.add_assoc]
    simp only [many, h, if_neg (Nat.ne_of_gt hlt)]
    rw [Run.outcome?_after, Run.outcome?_mapValue, ih, Option.map_map, hmap]

/-- How a repetition ends where its body does not advance. -/
def ending (last : Nat) : Outcome α → Outcome (List α)
  | .success _ _ => .success [] last
  | .failure failure => if failure.position = last then .success [] last else .failure failure
  | .fault fault => .fault fault

/-- Where its body does not advance, a repetition makes one attempt and ends as this one tells. -/
theorem outcome?_many_last
    (hlast : ∀ value stop, (body input last).outcome? = some (.success value stop) → stop = last)
    (fuel : Nat) :
    (many (fuel + 1) body input last).outcome? = (body input last).outcome?.map (ending last) := by
  rw [many]
  rcases hrun : body input last with - | ⟨events, ⟨value, stop⟩ | failure | fault⟩
  · rfl
  · have hstop : stop = last := by
      refine hlast value stop ?_
      rw [hrun]
      rfl
    show (if stop = last then _ else _ : Run (List α)).outcome? = _
    rw [if_pos hstop]
    rfl
  · by_cases hposition : failure.position = last
    · simp [Run.outcome?, ending, hposition]
    · simp [Run.outcome?, ending, hposition]
  · rfl

/-- A repetition ends like its body at the end of a chain that cannot be made longer. -/
theorem outcome?_many_of_maximal {fuel : Nat} (h : Advances body input start values last)
    (hlast : ∀ value stop, (body input last).outcome? = some (.success value stop) → stop = last)
    (hsize : last ≤ size input) (hfuel : size input - start < fuel) :
    (many fuel body input start).outcome? =
      (body input last).outcome?.map fun outcome => (ending last outcome).map (values ++ ·) := by
  have hlength := h.add_length_le
  obtain ⟨rounds, rfl⟩ : ∃ rounds, fuel = rounds + 1 + values.length :=
    ⟨fuel - values.length - 1, by omega⟩
  rw [outcome?_many_of_advances h, outcome?_many_last hlast, Option.map_map]
  rfl

/-- A body that is exhausted at an offset does not advance from it. -/
theorem Exhausted.eq_last (h : Exhausted body input last) {value : α}
    (hsuccess : (body input last).outcome? = some (.success value stop)) : stop = last := by
  rcases h with ⟨expected, h⟩ | ⟨value', h⟩
  · rw [hsuccess] at h
    cases h
  · rw [hsuccess] at h
    cases h
    rfl

/-- The successes of a repetition are the chains that lead to where the body is exhausted. -/
theorem outcome?_many_success_iff {fuel : Nat} (hbody : Bounded body input start)
    (hstart : start ≤ size input) (hfuel : size input - start < fuel) :
    (many fuel body input start).outcome? = some (.success values last) ↔
      Advances body input start values last ∧ Exhausted body input last := by
  constructor
  · -- some chain is maximal, and the outcome says that it is the one in question
    intro h
    obtain ⟨values', last', hchain, hsize, hlast⟩ := exists_advances hbody hstart
    rw [outcome?_many_of_maximal hchain hlast hsize hfuel, Option.map_eq_some_iff] at h
    obtain ⟨outcome, houtcome, hending⟩ := h
    rcases outcome with ⟨value, stop⟩ | ⟨expected, position⟩ | fault
    · obtain rfl := hlast value stop houtcome
      simp only [ending, Outcome.map, List.append_nil, Outcome.success.injEq] at hending
      obtain ⟨rfl, rfl⟩ := hending
      exact ⟨hchain, .inr ⟨value, houtcome⟩⟩
    · by_cases hposition : position = last'
      · simp only [ending, if_pos hposition, Outcome.map, List.append_nil,
          Outcome.success.injEq] at hending
        obtain ⟨rfl, rfl⟩ := hending
        rw [hposition] at houtcome
        exact ⟨hchain, .inl ⟨expected, houtcome⟩⟩
      · simp only [ending, if_neg hposition, Outcome.map, reduceCtorEq] at hending
    · cases hending
  · rintro ⟨hchain, hexhausted⟩
    have hsize := hchain.le_size hbody hstart
    rw [outcome?_many_of_maximal hchain (fun value stop => hexhausted.eq_last) hsize hfuel]
    rcases hexhausted with ⟨expected, h⟩ | ⟨value, h⟩
    · simp [h, ending, Outcome.map]
    · simp [h, ending, Outcome.map]

/-- The failures of a repetition are those of its body away from the end of a chain. -/
theorem outcome?_many_failure_iff {fuel : Nat} {failure : Failure}
    (hbody : Bounded body input start) (hstart : start ≤ size input)
    (hfuel : size input - start < fuel) :
    (many fuel body input start).outcome? = some (.failure failure) ↔
      ∃ values last, Advances body input start values last ∧
        (body input last).outcome? = some (.failure failure) ∧ failure.position ≠ last := by
  constructor
  · intro h
    obtain ⟨values, last, hchain, hsize, hlast⟩ := exists_advances hbody hstart
    rw [outcome?_many_of_maximal hchain hlast hsize hfuel, Option.map_eq_some_iff] at h
    obtain ⟨outcome, houtcome, hending⟩ := h
    rcases outcome with ⟨value, stop⟩ | failure' | fault
    · cases hending
    · by_cases hposition : failure'.position = last
      · simp only [ending, if_pos hposition, Outcome.map, reduceCtorEq] at hending
      · simp only [ending, if_neg hposition, Outcome.map, Outcome.failure.injEq] at hending
        rw [← hending]
        exact ⟨values, last, hchain, houtcome, hposition⟩
    · cases hending
  · rintro ⟨values, last, hchain, h, hposition⟩
    have hsize := hchain.le_size hbody hstart
    -- where the body fails, no chain goes on
    have hlast : ∀ value stop, (body input last).outcome? = some (.success value stop) →
        stop = last := by
      intro value stop hsuccess
      rw [h] at hsuccess
      cases hsuccess
    rw [outcome?_many_of_maximal hchain hlast hsize hfuel]
    simp [h, ending, hposition, Outcome.map]

/-- A repetition ends if its body does from every offset that it can reach. -/
theorem many_ends_of_bounded {fuel : Nat} (hbody : Bounded body input start)
    (hends : ∀ offset, start ≤ offset → offset ≤ size input → (body input offset).Ends)
    (hstart : start ≤ size input) (hfuel : size input - start < fuel) :
    (many fuel body input start).Ends := by
  refine many_ends (I := fun offset => start ≤ offset ∧ offset ≤ size input)
    (f := fun offset => size input - offset) (fun offset h => hends offset h.1 h.2) ?_
    ⟨Nat.le_refl _, hstart⟩ hfuel
  rintro offset ⟨hle, hsize⟩
  have hsuccess := fun value stop => hbody offset value stop hle hsize
  generalize body input offset = run at hsuccess ⊢
  rcases run with - | ⟨events, ⟨value, stop⟩ | failure | fault⟩
  · trivial
  · obtain ⟨hoffset, hstop⟩ := hsuccess value stop rfl
    show stop = offset ∨ (start ≤ stop ∧ stop ≤ size input) ∧
      size input - stop < size input - offset
    omega
  · trivial
  · trivial

/-! ### Choices -/

/-- An alternative that does not apply: it fails exactly at the start. -/
def FailsHere (alternative : Matching α) (input : List Char) (start : Nat) : Prop :=
  ∃ expected, (alternative input start).outcome? = some (.failure ⟨expected, start⟩)

/-- The alternative that a choice comes down to: the first that is the last one or does not fail
exactly at the start. -/
structure Decides (alternatives : List (Matching α)) (input : List Char) (start : Nat)
    (skipped : List (Matching α)) (chosen : Matching α) (later : List (Matching α)) : Prop where
  split : alternatives = skipped ++ chosen :: later
  skips : ∀ alternative ∈ skipped, FailsHere alternative input start
  stops : later = [] ∨ ¬FailsHere chosen input start

variable {alternatives skipped later : List (Matching α)} {chosen : Matching α}

/-- Some alternative of a choice decides it, if there is one at all. -/
theorem exists_decides (input : List Char) (start : Nat) (hne : alternatives ≠ []) :
    ∃ skipped chosen later, Decides alternatives input start skipped chosen later := by
  induction alternatives with
  | nil => exact absurd rfl hne
  | cons first others ih =>
    by_cases hlast : others = []
    · exact ⟨[], first, others, rfl, nofun, .inl hlast⟩
    · by_cases hfirst : FailsHere first input start
      · obtain ⟨skipped, chosen, later, hsplit, hskips, hstops⟩ := ih hlast
        exact ⟨first :: skipped, chosen, later, congrArg (first :: ·) hsplit,
          List.forall_mem_cons.2 ⟨hfirst, hskips⟩, hstops⟩
      · exact ⟨[], first, others, rfl, nofun, .inr hfirst⟩

/-- A choice does what the deciding alternative does after those before it, whatever comes after
it: what is put there in place of the later alternatives is not run either. -/
theorem choice_eq_after (h : Decides alternatives input start skipped chosen later) :
    ∃ events, ∀ others, (later = [] → others = []) →
      choice (skipped ++ chosen :: others) input start = (chosen input start).after events := by
  obtain ⟨-, hskips, hstops⟩ := h
  induction skipped with
  | nil =>
    refine ⟨[], fun others hothers => ?_⟩
    have hafter : (chosen input start).after [] = chosen input start := by
      rcases chosen input start with - | ⟨events, outcome⟩ <;> rfl
    rw [hafter, List.nil_append]
    cases others with
    | nil => rfl
    | cons next others =>
      -- the last of several alternatives may fail at the start, but this one is not the last
      have hchosen : ¬FailsHere chosen input start :=
        hstops.resolve_left fun hlater => List.cons_ne_nil _ _ (hothers hlater)
      rw [choice]
      rcases hrun : chosen input start with - | ⟨events, ⟨value, stop⟩ | failure | fault⟩
      · rfl
      · rfl
      · have hposition : failure.position ≠ start := by
          rintro rfl
          refine hchosen ⟨failure.expected, ?_⟩
          rw [hrun]
          rfl
        simp only [if_neg hposition]
      · rfl
  | cons first skipped ih =>
    obtain ⟨⟨expected, hfirst⟩, hskips⟩ := List.forall_mem_cons.1 hskips
    obtain ⟨before, hfirst⟩ := Run.outcome?_eq_some hfirst
    obtain ⟨events, hevents⟩ := ih hskips
    -- what was skipped leaves its events and nothing else
    refine ⟨before ++ events, fun others hothers => ?_⟩
    rw [← Run.after_after, ← hevents others hothers, List.cons_append]
    rcases hrest : skipped ++ chosen :: others with - | ⟨next, rest⟩
    · exact absurd (List.append_eq_nil_iff.1 hrest).2 (List.cons_ne_nil _ _)
    · simp only [choice, hfirst, if_true]

/-- So every choice is that of one alternative, and the later ones are never run. -/
theorem choice_eq_deciding (input : List Char) (start : Nat) (hne : alternatives ≠ []) :
    ∃ skipped chosen later, Decides alternatives input start skipped chosen later ∧
      (choice alternatives input start).outcome? = (chosen input start).outcome? ∧
      ∃ events, ∀ others, (later = [] → others = []) →
        choice (skipped ++ chosen :: others) input start = (chosen input start).after events := by
  obtain ⟨skipped, chosen, later, hdecides⟩ := exists_decides input start hne
  obtain ⟨events, hevents⟩ := choice_eq_after hdecides
  refine ⟨skipped, chosen, later, hdecides, ?_, events, hevents⟩
  rw [hdecides.split, hevents later id, Run.outcome?_after]

/-! ### At least one match -/

/-- At least one match ends if any number of them does. -/
theorem many1_ends_of_bounded {fuel : Nat} (hbody : Bounded body input start)
    (hends : ∀ offset, start ≤ offset → offset ≤ size input → (body input offset).Ends)
    (hstart : start ≤ size input) (hfuel : size input - start < fuel) :
    (many1 fuel body input start).Ends := by
  rw [many1]
  have hfirst := hends start (Nat.le_refl _) hstart
  have hsuccess := fun value stop => hbody start value stop (Nat.le_refl _) hstart
  generalize body input start = run at hfirst hsuccess
  cases hfirst with
  | success events value stop =>
    obtain ⟨hle, hstop⟩ := hsuccess value stop rfl
    have hmany : (many fuel body input stop).Ends :=
      many_ends_of_bounded (hbody.later hle)
        (fun offset hoffset => hends offset (Nat.le_trans hle hoffset)) hstop (by omega)
    exact (hmany.mapValue _).after events
  | failure events failure => exact .failure _ _

/-! ### Repetitions and choices -/

/-- For any body whose successes from a start on are bounded by the text, a repetition ends if the
body does; it succeeds just with the chains that lead to where the body is exhausted, and fails
just as the body does elsewhere than at the end of a chain.  At least one match is one match,
whether it advances or not, and then any number of them.  A choice, whatever its alternatives are,
is decided by one of them, and none after that is run. -/
theorem many_eq_maximal_chain :
    (∀ {body : Matching α} {input : List Char} {start fuel : Nat}, Bounded body input start →
      start ≤ size input → size input - start < fuel →
      ((∀ offset, start ≤ offset → offset ≤ size input → (body input offset).Ends) →
        (many fuel body input start).Ends ∧ (many1 fuel body input start).Ends) ∧
      (∀ values last, (many fuel body input start).outcome? = some (.success values last) ↔
        Advances body input start values last ∧ Exhausted body input last) ∧
      (∀ failure, (many fuel body input start).outcome? = some (.failure failure) ↔
        ∃ values last, Advances body input start values last ∧
          (body input last).outcome? = some (.failure failure) ∧ failure.position ≠ last) ∧
      (∀ first stop, (body input start).outcome? = some (.success first stop) →
        (many1 fuel body input start).outcome? =
          (many fuel body input stop).outcome?.map (Outcome.map (first :: ·))) ∧
      ∀ failure, (body input start).outcome? = some (.failure failure) →
        (many1 fuel body input start).outcome? = some (.failure failure)) ∧
    ∀ (alternatives : List (Matching α)) (input : List Char) (start : Nat), alternatives ≠ [] →
      ∃ skipped chosen later, Decides alternatives input start skipped chosen later ∧
        (choice alternatives input start).outcome? = (chosen input start).outcome? ∧
        ∃ events, ∀ others, (later = [] → others = []) →
          choice (skipped ++ chosen :: others) input start =
            (chosen input start).after events := by
  refine ⟨?_, fun alternatives input start hne => choice_eq_deciding input start hne⟩
  intro body input start fuel hbody hstart hfuel
  refine ⟨fun hends => ⟨?_, ?_⟩, fun values last => ?_, fun failure => ?_, fun first stop => ?_,
    fun failure => ?_⟩
  · exact many_ends_of_bounded hbody hends hstart hfuel
  · exact many1_ends_of_bounded hbody hends hstart hfuel
  · exact outcome?_many_success_iff hbody hstart hfuel
  · exact outcome?_many_failure_iff hbody hstart hfuel
  · exact outcome?_many1_of_success
  · exact outcome?_many1_of_failure

end Combinator

/-! ### A repetition that fails

Pairs of an `a` and a `b`.  The first pair of `aba` is read and the second one is begun. -/

namespace Pairs

def pair : Matching String := fun input start =>
  (Run.primitive (Primitive.literal "a" input start)).andThen fun _ stop =>
    Run.primitive (Primitive.literal "b" input stop)

theorem pair_bounded : Combinator.Bounded pair "aba".toList 0 := by
  rintro offset value stop - hoffset h
  have hle : offset ≤ 3 := hoffset
  interval_cases offset
  · cases h
    decide
  · cases h
  · cases h
  · cases h

theorem many_pair_fails :
    Combinator.Bounded pair "aba".toList 0 ∧ 0 ≤ size "aba".toList ∧ size "aba".toList - 0 < 4 ∧
      (Combinator.many 4 pair "aba".toList 0).outcome? = some (.failure ⟨"b", 3⟩) := by
  have hsize : 0 ≤ size "aba".toList := Nat.zero_le _
  have hfuel : size "aba".toList - 0 < 4 := by decide
  refine ⟨pair_bounded, hsize, hfuel, ?_⟩
  obtain ⟨-, -, hfailure, -⟩ := Combinator.many_eq_maximal_chain.1 pair_bounded hsize hfuel
  refine (hfailure ⟨"b", 3⟩).2 ⟨["b"], 2, ?_, rfl, by decide⟩
  exact .step rfl (by decide) (.refl 2)

end Pairs

end Peg
