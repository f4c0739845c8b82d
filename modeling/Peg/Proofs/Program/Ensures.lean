/-
Peg/Proofs/Program/Ensures.lean

What sequences and rules ensure, given what their parts do.

Two steps of a program are more than a combinator: a sequence makes captures
of what its items match, and a rule may skip blanks once one of its
alternatives has matched.  Here is what `Run.Ensures` says of them.
-/
import Peg.Program.Run
import Peg.Proofs.Run.Ensures

namespace Peg

namespace Program

variable {program : Program} {step : Step} {param : Option String} {input : List Char}
variable {start : Nat}

/-- What every capture that is added leaves true is true of the captures. -/
theorem matchItems_keeps {items : List Matcher} {P : List Capture → Nat → Prop}
    (h : ∀ item ∈ items, ∀ captures start, P captures start →
      (step ⟨param, captures⟩ item input start).Ensures
        (fun value stop => P (captures ++ [⟨value, ⟨start, stop⟩⟩]) stop) fun _ => True)
    (hstart : P [] start) :
    (matchItems step items param input start).Ensures P fun _ => True := by
  refine Combinator.sequence_ensures (fun matching hmatching captures start hcaptures => ?_) hstart
  obtain ⟨item, hitem, rfl⟩ := List.mem_map.1 hmatching
  exact (h item hitem captures start hcaptures).andThen fun _ _ hvalue => hvalue

/-- What is known of what every item matches, wherever it starts, is known of the captures. -/
theorem matchItems_ensures {items : List Matcher} {I : Nat → Prop} {P : Capture → Prop}
    (h : ∀ item ∈ items, ∀ captures start, I start →
      (step ⟨param, captures⟩ item input start).Ensures
        (fun value stop => I stop ∧ P ⟨value, ⟨start, stop⟩⟩) fun _ => True)
    (hstart : I start) :
    (matchItems step items param input start).Ensures
      (fun captures stop => I stop ∧ ∀ capture ∈ captures, P capture) fun _ => True := by
  refine matchItems_keeps (fun item hitem captures start hcaptures => ?_) ⟨hstart, nofun⟩
  refine (h item hitem captures start hcaptures.1).mono (fun value stop hvalue => ?_) fun _ h => h
  refine ⟨hvalue.1, fun capture hcapture => ?_⟩
  rcases List.mem_append.1 hcapture with hcapture | hcapture
  · exact hcaptures.2 capture hcapture
  · rw [List.mem_singleton.1 hcapture]
    exact hvalue.2

/-- What is known of every alternative of a rule, and is not changed by the blanks after it, is
known of the rule. -/
theorem matchRule_ensures {id : Nat} {P : Value → Nat → Prop}
    (h : ∀ rule, program.rules[id]? = some rule → ∀ alternative ∈ rule.alternatives,
      (matchAlternative step alternative param input start).Ensures P fun _ => True)
    (hblank : ∀ rule, program.rules[id]? = some rule → rule.skipsBlank = true →
      ∀ value stop, P value stop → P value (Primitive.skipBlank input stop)) :
    (program.matchRule step id param input start).Ensures P fun _ => True := by
  unfold matchRule
  rcases hrule : program.rules[id]? with - | rule
  · trivial
  · have hchoice : (Combinator.choice (rule.alternatives.map fun alternative =>
        matchAlternative step alternative param) input start).Ensures P fun _ => True := by
      refine Combinator.choice_ensures (fun matching hmatching => ?_) trivial
      obtain ⟨alternative, halternative, rfl⟩ := List.mem_map.1 hmatching
      exact h rule hrule alternative halternative
    dsimp only
    generalize Combinator.choice _ input start = run at hchoice
    rcases run with - | ⟨events, ⟨value, stop⟩ | failure | fault⟩
    · trivial
    · show P value (if rule.skipsBlank then Primitive.skipBlank input stop else stop)
      split
      · rename_i hskips
        exact hblank rule hrule hskips value stop hchoice
      · exact hchoice
    · trivial
    · trivial

/-- Sequences are the same when their items are. -/
theorem matchItems_ext {step' : Step} {items : List Matcher}
    (h : ∀ item ∈ items, ∀ captures, step ⟨param, captures⟩ item = step' ⟨param, captures⟩ item) :
    matchItems step items param = matchItems step' items param := by
  refine congrArg (Combinator.sequence · []) (List.map_congr_left fun item hitem => ?_)
  funext captures input start
  rw [h item hitem captures]

/-- A rule does the same when the items of its alternatives do. -/
theorem matchRule_congr {step' : Step} {id : Nat} {rule : CompiledRule}
    (hrule : program.rules[id]? = some rule)
    (h : ∀ alternative ∈ rule.alternatives,
      matchItems step alternative.items param input start =
        matchItems step' alternative.items param input start) :
    program.matchRule step id param input start = program.matchRule step' id param input start := by
  have hchoice : ∀ alternative ∈ rule.alternatives,
      matchAlternative step alternative param input start =
        matchAlternative step' alternative param input start := by
    intro alternative halternative
    rw [matchAlternative, h alternative halternative]
    rfl
  unfold matchRule
  rw [hrule]
  dsimp only
  rw [Combinator.choice_congr hchoice]

end Program

end Peg
