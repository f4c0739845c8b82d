/-
Peg/Proofs/Program/WithoutMappers.lean

Programs without their mappers.

What a mapper gives is a value, and a run looks at values in two places: a
back-reference stands for the text of one, and a function of the host is
handed those of its matches.  Without either, two steps that end alike from
any captures make sequences that do, whatever the mappers make of them:

    ending? of  program.withoutMappers  =  ending? of  program

for every rule, text and offset.  This is `Run.Alike` for values that need not
be related.
-/
import Peg.Proofs.Program.Instance
import Peg.Proofs.Program.Items
import Peg.Proofs.Program.Moved

namespace Peg

/-! ### Programs without mappers -/

/-- The alternative with the tuple of its items for a value. -/
def CompiledAlternative.withoutMapper (alternative : CompiledAlternative) : CompiledAlternative :=
  { alternative with mapper := none }

def CompiledRule.withoutMappers (rule : CompiledRule) : CompiledRule :=
  { rule with alternatives := rule.alternatives.map CompiledAlternative.withoutMapper }

namespace Program

/-- The program without its mappers. -/
def withoutMappers (program : Program) : Program :=
  ⟨program.rules.map CompiledRule.withoutMappers⟩

variable {program : Program}

theorem itemLists_withoutMappers : program.withoutMappers.itemLists = program.itemLists := by
  have hrule : ∀ rule : CompiledRule, rule.withoutMappers.itemLists = rule.itemLists := by
    intro rule
    show (rule.alternatives.map _).map _ = rule.alternatives.map _
    rw [List.map_map]
    rfl
  rw [itemLists, withoutMappers, List.map_map]
  exact congrArg (List.map · program.rules) (funext hrule)

theorem getElem?_withoutMappers (id : Nat) :
    program.withoutMappers.rules[id]? = program.rules[id]?.map CompiledRule.withoutMappers :=
  List.getElem?_map

theorem heads_withoutMappers :
    program.withoutMappers.rules.map (·.head) = program.rules.map (·.head) := by
  rw [withoutMappers, List.map_map]
  rfl

end Program

/-! ### Matchers without values -/

/-- Matchers that do not look at the value of a match. -/
def Matcher.isValueFree : Matcher → Bool
  | .variable _ | .external _ _ _ => false
  | _ => true

/-! ### Runs -/

/-- How a run ends, without the value. -/
def Run.ending? {α : Type} (run : Run α) : Option (Outcome Unit) :=
  run.outcome?.map (Outcome.map fun _ => ())

/-- Two runs that end alike but for their values. -/
abbrev Run.EndsAlike {α β : Type} (run : Run α) (other : Run β) : Prop :=
  Run.Alike (fun _ _ => True) 0 run other

theorem Run.EndsAlike.ending {α β : Type} {run : Run α} {other : Run β} (h : run.EndsAlike other) :
    other.ending? = run.ending? := by
  cases h with
  | cutShort => rfl
  | success events events' stop _ =>
    rw [Nat.zero_add]
    rfl
  | failure events events' expected position =>
    rw [Nat.zero_add]
    rfl
  | fault => rfl

namespace Program

variable {program : Program} {step step' : Step} {param : Option String} {input : List Char}

/-- Two steps end alike, whatever was captured before. -/
def StepsEndAlike (step step' : Step) (param : Option String) (input : List Char)
    (item : Matcher) : Prop :=
  ∀ captures captures' start, Run.EndsAlike (step ⟨param, captures⟩ item input start)
    (step' ⟨param, captures'⟩ item input (0 + start))

theorem matchItems_endsAlike {items : List Matcher}
    (h : ∀ item ∈ items, StepsEndAlike step step' param input item) (start : Nat) :
    Run.EndsAlike (matchItems step items param input start)
      (matchItems step' items param input (0 + start)) := by
  have hsequence : Run.Alike (List.Forall₂ fun (_ _ : Capture) => True) 0
      (matchItems step items param input start)
      (matchItems step' items param input (0 + start)) := by
    refine Combinator.sequence_alike ?_ .nil start
    rw [List.forall₂_map_left_iff, List.forall₂_map_right_iff, List.forall₂_same]
    intro item hitem captures captures' _ start
    exact (h item hitem captures captures' start).andThen fun _ _ _ _ => .success _ _ _ trivial
  exact hsequence.mono fun _ _ _ => trivial

theorem matchAlternative_endsAlike {alternative : CompiledAlternative}
    (h : ∀ item ∈ alternative.items, StepsEndAlike step step' param input item) (start : Nat) :
    Run.EndsAlike (matchAlternative step alternative param input start)
      (matchAlternative step' alternative.withoutMapper param input (0 + start)) :=
  (matchItems_endsAlike h start).andThen fun _ _ _ _ => .success _ _ _ trivial

theorem matchRule_endsAlike (id : Nat) (start : Nat)
    (h : ∀ rule, program.rules[id]? = some rule → ∀ alternative ∈ rule.alternatives,
      ∀ item ∈ alternative.items, StepsEndAlike step step' param input item) :
    Run.EndsAlike (program.matchRule step id param input start)
      (program.withoutMappers.matchRule step' id param input (0 + start)) := by
  rcases hrule : program.rules[id]? with - | rule
  · simp only [matchRule, getElem?_withoutMappers, hrule]
    exact .fault ..
  · have hrule' : program.withoutMappers.rules[id]? = some rule.withoutMappers := by
      rw [getElem?_withoutMappers, hrule]
      rfl
    refine rules_alike (.self input) hrule hrule' rfl ?_
    rw [CompiledRule.withoutMappers, List.forall₂_map_right_iff, List.forall₂_same]
    exact fun alternative halternative =>
      matchAlternative_endsAlike (h rule hrule alternative halternative) start

/-- A matcher that looks at no values ends alike with and without the mappers. -/
theorem matcher_endsAlike (hfree : program.Every (·.isValueFree = true)) (fuel : Nat)
    (param : Option String) (input : List Char) {m : Matcher} (hm : m.Every (·.isValueFree = true)) :
    StepsEndAlike (program.matcher fuel) (program.withoutMappers.matcher fuel) param input m := by
  induction fuel generalizing m param input with
  | zero => exact fun _ _ _ => .cutShort
  | succ fuel ih =>
    intro captures captures' start
    have hrule : ∀ id param, Run.EndsAlike
        (program.matchRule (program.matcher fuel) id param input start)
        (program.withoutMappers.matchRule (program.withoutMappers.matcher fuel) id param input
          (0 + start)) := fun id param =>
      matchRule_endsAlike id start fun rule hrule alternative halternative item hitem =>
        ih param input (hfree.ofItem hrule halternative hitem)
    have htext : ∀ {outcome outcome' : Outcome String},
        Run.Alike Eq 0 (Run.primitive outcome) (Run.primitive outcome') →
        Run.EndsAlike (Run.primitive (outcome.map Value.str))
          (Run.primitive (outcome'.map Value.str)) := by
      intro outcome outcome' houtcome
      rw [Run.primitive_map, Run.primitive_map]
      exact houtcome.mapValue fun _ _ _ => trivial
    cases m with
    | literal string => exact htext (Primitive.literal_alike (.self input) string start)
    | regex expression description =>
      exact htext (Primitive.regex_alike (.self input) expression description start)
    | any => exact htext (Primitive.anyChar_alike (.self input) start)
    | rule id => exact hrule id none
    | param => exact htext (Primitive.literal_alike (.self input) _ start)
    | «variable» index => cases hm.self
    | template id argument => exact hrule id (some argument)
    | negative inner =>
      have hinner := ih param input hm.negative captures captures' start
      exact (Combinator.negative_alike (.self input) hinner).mapValue fun _ _ _ => trivial
    | look inner => exact Combinator.look_alike (ih param input hm.look captures captures' start)
    | attempt inner =>
      exact Combinator.attempt_alike (ih param input hm.attempt captures captures' start)
    | backtrack inner =>
      rw [Nat.zero_add]
      exact Combinator.backtrack_alike fun passed _ =>
        ih param passed.reverse hm.backtrack captures captures' 0
    | external name transformer inner => cases hm.self
    | group items important =>
      exact (matchItems_endsAlike (fun item hitem => ih param input (hm.group item hitem))
        start).mapValue fun _ _ _ => trivial
    | repeated inner repetition =>
      have hinner := ih param input hm.repeated captures captures'
      cases repetition with
      | optional => exact (Combinator.optional_alike (hinner start)).mapValue fun _ _ _ => trivial
      | any => exact (Combinator.many_alike hinner fuel start).mapValue fun _ _ _ => trivial
      | oneOrMore => exact (Combinator.many1_alike hinner fuel start).mapValue fun _ _ _ => trivial

/-- So does a rule. -/
theorem call_endsAlike (hfree : program.Every (·.isValueFree = true)) (fuel id : Nat)
    (param : Option String) (input : List Char) (start : Nat) :
    Run.EndsAlike (program.call fuel id param input start)
      (program.withoutMappers.call fuel id param input start) := by
  have hrun := matchRule_endsAlike id start fun rule hrule alternative halternative item hitem =>
    matcher_endsAlike hfree fuel param input (hfree.ofItem hrule halternative hitem)
  rwa [Nat.zero_add] at hrun

theorem runRule_endsAlike (hfree : program.Every (·.isValueFree = true)) (id : Nat)
    (input : List Char) (start : Nat) :
    Run.EndsAlike (program.runRule id input start)
      (program.withoutMappers.runRule id input start) := by
  unfold runRule
  rw [fuel_of_itemLists itemLists_withoutMappers]
  exact call_endsAlike hfree (program.fuel input) id none input start

/-- What a subject is said to match does not depend on values, up to the value. -/
theorem result_of_endsAlike {subject : List Char} {full : Bool} {run run' : Run Value}
    (h : run.EndsAlike run') :
    (result subject full run').map (·.stop) = (result subject full run).map (·.stop) := by
  cases h with
  | cutShort => rfl
  | success events events' stop _ =>
    rw [Nat.zero_add, result, result]
    split
    · rfl
    · rfl
  | failure events events' expected position =>
    rw [Nat.zero_add]
    rfl
  | fault => rfl

theorem execute_withoutMappers (hfree : program.Every (·.isValueFree = true))
    (subject : List Char) (entry : Option String) (full : Bool) :
    (program.withoutMappers.execute subject entry full).map (·.stop) =
      (program.execute subject entry full).map (·.stop) := by
  simp only [execute, executeWithEvents, startRule_of_heads heads_withoutMappers]
  rcases program.startRule entry with error | id
  · rfl
  · exact result_of_endsAlike (runRule_endsAlike hfree id subject 0)

end Program

end Peg
