/-
Peg/Proofs/Program/Fuel.lean

The fuel of the interpreter is not part of its meaning.

A run that ends with some fuel ends with any larger amount, with the same
events and the same outcome (`matcher_below`).  Only functions of the host
could tell the difference, by asking whether the matching they are given was
cut short, so they have to be absent.
-/
import Peg.Program.Run
import Peg.Proofs.Program.Parts
import Peg.Proofs.Run.Below

namespace Peg

namespace Program

variable {program : Program} {step step' : Step}

/-! ### One step -/

theorem matchItems_below {items : List Matcher}
    (h : ∀ item ∈ items, ∀ scope, Matching.Below (step scope item) (step' scope item))
    (param : Option String) :
    Matching.Below (matchItems step items param) (matchItems step' items param) := by
  refine Combinator.sequence_below ?_ []
  rw [List.forall₂_map_left_iff, List.forall₂_map_right_iff, List.forall₂_same]
  intro item hitem previous input start
  exact (h item hitem _ input start).andThen fun _ _ => .refl _

theorem matchAlternative_below {alternative : CompiledAlternative}
    (h : ∀ item ∈ alternative.items, ∀ scope,
      Matching.Below (step scope item) (step' scope item))
    (param : Option String) :
    Matching.Below (matchAlternative step alternative param)
      (matchAlternative step' alternative param) :=
  fun input start => (matchItems_below h param input start).andThen fun _ _ => .refl _

theorem matchRule_below {id : Nat}
    (h : ∀ rule, program.rules[id]? = some rule → ∀ alternative ∈ rule.alternatives,
      ∀ item ∈ alternative.items, ∀ scope, Matching.Below (step scope item) (step' scope item))
    (param : Option String) :
    Matching.Below (program.matchRule step id param) (program.matchRule step' id param) := by
  intro input start
  unfold matchRule
  rcases hrule : program.rules[id]? with - | rule
  · exact .refl _
  · have hchoice : Run.Below
        (Combinator.choice (rule.alternatives.map fun alternative =>
          matchAlternative step alternative param) input start)
        (Combinator.choice (rule.alternatives.map fun alternative =>
          matchAlternative step' alternative param) input start) := by
      refine Combinator.choice_below ?_ input start
      rw [List.forall₂_map_left_iff, List.forall₂_map_right_iff, List.forall₂_same]
      exact fun alternative halternative =>
        matchAlternative_below (h rule hrule alternative halternative) param
    rcases hchoice with hnone | hsame
    · simp only [hnone]
      exact .cutShort _
    · simp only [hsame]
      exact .refl _

/-! ### Any amount of fuel -/

/-- More fuel never changes an answer. -/
theorem matcher_below (hprogram : program.Every fun part => part.isRegistered = false)
    {fuel fuel' : Nat} (hfuel : fuel ≤ fuel') (scope : Scope) {m : Matcher}
    (hm : m.Every fun part => part.isRegistered = false) :
    Matching.Below (program.matcher fuel scope m) (program.matcher fuel' scope m) := by
  induction fuel generalizing fuel' scope m with
  | zero => exact fun _ _ => .cutShort _
  | succ fuel ih =>
    obtain ⟨fuel', rfl⟩ := Nat.exists_eq_add_one_of_ne_zero (by omega : fuel' ≠ 0)
    have hle : fuel ≤ fuel' := Nat.le_of_succ_le_succ hfuel
    have hrule : ∀ id param, Matching.Below
        (program.matchRule (program.matcher fuel) id param)
        (program.matchRule (program.matcher fuel') id param) := fun id =>
      matchRule_below fun rule hrule alternative halternative item hitem scope =>
        ih hle scope (hprogram.ofItem hrule halternative hitem)
    intro input start
    -- every combinator is monotone, and a registered function need not be
    cases m with
    | literal string => exact .refl _
    | regex expression description => exact .refl _
    | any => exact .refl _
    | rule id => exact hrule id none input start
    | param => exact .refl _
    | «variable» index => exact .refl _
    | template id argument => exact hrule id (some argument) input start
    | negative inner =>
      exact (Combinator.negative_below (ih hle scope hm.negative) input start).mapValue _
    | look inner => exact Combinator.look_below (ih hle scope hm.look) input start
    | attempt inner => exact Combinator.attempt_below (ih hle scope hm.attempt) input start
    | backtrack inner => exact Combinator.backtrack_below (ih hle scope hm.backtrack) input start
    | external name transformer inner =>
      cases transformer with
      | none => exact .refl _
      | some transformer => exact absurd hm.self (by simp [Matcher.isRegistered])
    | group items important =>
      exact (matchItems_below (fun item hitem scope => ih hle scope (hm.group item hitem))
        scope.param input start).mapValue _
    | repeated inner repetition =>
      have hinner := ih hle scope hm.repeated
      cases repetition with
      | optional => exact (Combinator.optional_below hinner input start).mapValue _
      | any => exact (Combinator.many_below hle hinner input start).mapValue _
      | oneOrMore => exact (Combinator.many1_below hle hinner input start).mapValue _

end Program

end Peg
