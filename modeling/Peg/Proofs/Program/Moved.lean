/-
Peg/Proofs/Program/Moved.lean

Matching a text at another place.

What precedes the offset where a rule starts is never looked at: without
backward matching and functions of the host, a rule does the same on

    rest           at  start            and on
    passed ++ rest at  size passed + start

except that all offsets are `size passed` further on in the second case, the
spans in the value included.  Mappers may not ask for offsets, since the
numbers they would give have no way to tell that they are offsets.

The two runs are compared as in `Run.Alike`, fuel for fuel, so the one is cut
short when the other is.  The captures of the one are those of the other with
their spans moved.  A back-reference only sees their texts, which are the
same.
-/
import Peg.Proofs.Program.Reads
import Peg.Proofs.Run.Alike
import Peg.Proofs.Program.Course

namespace Peg

open Text

/-! ### Moved outcomes -/

/-- A span further on. -/
def Span.moveBy (shift : Nat) (span : Span) : Span :=
  ⟨shift + span.start, shift + span.stop⟩

/-- A value with its spans further on. -/
def Value.moveBy (shift : Nat) : Value → Value :=
  Value.mapSpans (Span.moveBy shift)

/-- What an item has matched further on. -/
def Capture.moveBy (shift : Nat) : Capture → Capture :=
  Capture.mapSpans (Span.moveBy shift)

/-- An outcome with all its offsets further on. -/
def Outcome.moveBy (shift : Nat) : Outcome Value → Outcome Value
  | .success value stop => .success (value.moveBy shift) (shift + stop)
  | .failure reason => .failure (reason.moveTo (shift + reason.position))
  | .fault reason => .fault reason

/-- A run that ends like another one, further on. -/
abbrev Run.Moves (shift : Nat) (run other : Run Value) : Prop :=
  Run.Alike (fun value value' => value.moveBy shift = value') shift run other

theorem Run.Moves.outcome {shift : Nat} {run other : Run Value} (h : run.Moves shift other) :
    other.outcome? = run.outcome?.map (Outcome.moveBy shift) := by
  cases h with
  | cutShort => rfl
  | success events events' stop hvalue =>
    subst hvalue
    rfl
  | failure => rfl
  | fault => rfl

/-- A primitive matcher gives a text, which has no spans. -/
theorem Run.Moves.text {shift : Nat} {outcome outcome' : Outcome String}
    (h : Run.Alike Eq shift (Run.primitive outcome) (Run.primitive outcome')) :
    Run.Moves shift (Run.primitive (outcome.map Value.str))
      (Run.primitive (outcome'.map Value.str)) := by
  rw [Run.primitive_map, Run.primitive_map]
  refine h.mapValue fun _ _ htext => ?_
  rw [htext]
  rfl

namespace Value

variable {shift : Nat}

theorem moveBy_list {values values' : List Value}
    (h : List.Forall₂ (fun value value' => value.moveBy shift = value') values values') :
    (Value.list values).moveBy shift = .list values' := by
  rw [← map_eq_of_forall₂ h, moveBy, mapSpans, mapSpansOfAll_eq_map]

theorem moveBy_ofOption {value value' : Option Value}
    (h : Option.Rel (fun value value' => value.moveBy shift = value') value value') :
    (ofOption value).moveBy shift = ofOption value' := by
  cases h with
  | none => rfl
  | some h => exact h

end Value

/-- A back-reference stands for the same text. -/
theorem Scope.textOf_moved (shift : Nat) (param : Option String) (captures : List Capture)
    (index : Nat) :
    Scope.textOf ⟨param, captures.map (Capture.moveBy shift)⟩ index =
      Scope.textOf ⟨param, captures⟩ index := by
  rw [textOf, textOf, List.getElem?_map]
  rcases captures[index]? with - | capture
  · rfl
  · exact Value.text_mapSpans capture.value

namespace Program

variable {program : Program} {step : Step} {param : Option String} {shift : Nat}
variable {input input' : List Char}

/-! ### Alternatives and rules -/

/-- A step does the same further on, given the same captures further on. -/
def StepMoves (step : Step) (shift : Nat) (input input' : List Char) (param : Option String)
    (item : Matcher) : Prop :=
  ∀ captures start, Run.Moves shift (step ⟨param, captures⟩ item input start)
    (step ⟨param, captures.map (Capture.moveBy shift)⟩ item input' (shift + start))

theorem matchItems_moves {items : List Matcher}
    (h : ∀ item ∈ items, StepMoves step shift input input' param item) (start : Nat) :
    Run.Alike (fun captures captures' => captures.map (Capture.moveBy shift) = captures') shift
      (matchItems step items param input start)
      (matchItems step items param input' (shift + start)) := by
  refine (Combinator.sequence_alike ?_ .nil start).mono fun _ _ => map_eq_of_forall₂
  rw [List.forall₂_map_left_iff, List.forall₂_map_right_iff, List.forall₂_same]
  intro item hitem captures captures' hcaptures start
  obtain rfl := map_eq_of_forall₂ hcaptures
  refine (h item hitem captures start).andThen fun value value' stop hvalue => ?_
  subst hvalue
  exact .success _ _ _ rfl

theorem matchAlternative_moves {alternative : CompiledAlternative}
    (htext : Aligned shift input input')
    (hpositionless : alternative.isPositionless = true)
    (h : ∀ item ∈ alternative.items, StepMoves step shift input input' param item) (start : Nat) :
    Run.Moves shift (matchAlternative step alternative param input start)
      (matchAlternative step alternative param input' (shift + start)) := by
  refine (matchItems_moves h start).andThen fun captures captures' stop hcaptures => ?_
  subst hcaptures
  refine .success _ _ _ ?_
  obtain ⟨items, mapper⟩ := alternative
  cases mapper with
  | none =>
    -- the spans of the captures are lost, and only their values are put together
    rw [Value.moveBy, Value.mapSpans_ofItems, List.map_map, List.map_map]
    rfl
  | some mapper =>
    have hslice := htext.slice start stop
    exact (MapperExpr.evaluate_mapSpans (f := Span.moveBy shift) hslice mapper hpositionless).symm

theorem matchRule_moves (htext : Aligned shift input input') (id : Nat) (start : Nat)
    (h : ∀ rule, program.rules[id]? = some rule → ∀ alternative ∈ rule.alternatives,
      Run.Moves shift (matchAlternative step alternative param input start)
        (matchAlternative step alternative param input' (shift + start))) :
    Run.Moves shift (program.matchRule step id param input start)
      (program.matchRule step id param input' (shift + start)) := by
  rcases hrule : program.rules[id]? with - | rule
  · simp only [matchRule, hrule]
    exact .fault ..
  · exact rules_alike htext hrule hrule rfl (List.forall₂_same.2 (h rule hrule))

/-! ### Runs -/

/-- Whether no mapper of a program asks for offsets. -/
def isPositionless (program : Program) : Bool :=
  program.rules.all fun rule => rule.alternatives.all (·.isPositionless)

theorem isPositionless_of_mem (h : program.isPositionless = true) {id : Nat} {rule : CompiledRule}
    (hrule : program.rules[id]? = some rule) {alternative : CompiledAlternative}
    (halternative : alternative ∈ rule.alternatives) : alternative.isPositionless = true := by
  rw [isPositionless, List.all_eq_true] at h
  exact List.all_eq_true.1 (h rule (List.mem_of_getElem? hrule)) alternative halternative

/-- Every matcher does the same further on. -/
theorem matcher_moves (hforward : program.Every fun part => part.isForward = true)
    (hpositionless : program.isPositionless = true) (htext : Aligned shift input input')
    (fuel : Nat) (param : Option String) {m : Matcher} (hm : m.Every fun part => part.isForward = true) :
    StepMoves (program.matcher fuel) shift input input' param m := by
  induction fuel generalizing m param with
  | zero => exact fun _ _ => .cutShort
  | succ fuel ih =>
    intro captures start
    -- a rule starts with captures of its own, so those of the caller need not be moved for it
    have hrule : ∀ id param, Run.Moves shift
        (program.matchRule (program.matcher fuel) id param input start)
        (program.matchRule (program.matcher fuel) id param input' (shift + start)) :=
      fun id param => matchRule_moves htext id start fun rule hrule alternative halternative =>
        matchAlternative_moves htext (isPositionless_of_mem hpositionless hrule halternative)
          (fun item hitem => ih param (hforward.ofItem hrule halternative hitem)) start
    cases m with
    | literal string => exact .text (Primitive.literal_alike htext string start)
    | regex expression description =>
      exact .text (Primitive.regex_alike htext expression description start)
    | any => exact .text (Primitive.anyChar_alike htext start)
    | rule id => exact hrule id none
    | param => exact .text (Primitive.literal_alike htext _ start)
    | «variable» index =>
      simp only [matcher, Scope.textOf_moved]
      exact .text (Primitive.literal_alike htext _ start)
    | template id argument => exact hrule id (some argument)
    | negative inner =>
      have hinner := ih param hm.negative captures start
      refine (Combinator.negative_alike htext hinner).mapValue fun _ _ htext => ?_
      rw [htext]
      rfl
    | look inner => exact Combinator.look_alike (ih param hm.look captures start)
    | attempt inner => exact Combinator.attempt_alike (ih param hm.attempt captures start)
    | backtrack inner => cases hm.self
    | external name transformer inner => cases hm.self
    | group items important =>
      refine (matchItems_moves (fun item hitem => ih param (hm.group item hitem)) start).mapValue
        fun captures captures' hcaptures => ?_
      subst hcaptures
      rw [groupValue, groupValue, Value.moveBy, Value.mapSpans_ofItems, ← project_map, List.map_map,
        List.map_map]
      rfl
    | repeated inner repetition =>
      have hinner := ih param hm.repeated captures
      cases repetition with
      | optional =>
        exact (Combinator.optional_alike (hinner start)).mapValue fun _ _ => Value.moveBy_ofOption
      | any =>
        exact (Combinator.many_alike hinner fuel start).mapValue fun _ _ => Value.moveBy_list
      | oneOrMore =>
        exact (Combinator.many1_alike hinner fuel start).mapValue fun _ _ => Value.moveBy_list

theorem call_moves (hforward : program.Every fun part => part.isForward = true)
    (hpositionless : program.isPositionless = true) (htext : Aligned shift input input')
    (fuel id : Nat) (param : Option String) (start : Nat) :
    (program.call fuel id param input' (shift + start)).outcome? =
      (program.call fuel id param input start).outcome?.map (Outcome.moveBy shift) := by
  refine Run.Moves.outcome (matchRule_moves htext id start ?_)
  intro rule hrule alternative halternative
  refine matchAlternative_moves htext (isPositionless_of_mem hpositionless hrule halternative)
    (fun item hitem => ?_) start
  exact matcher_moves hforward hpositionless htext fuel param
    (hforward.ofItem hrule halternative hitem)

/-- What is left of a text is matched as it is matched on its own. -/
theorem call_rest (hforward : program.Every fun part => part.isForward = true)
    (hpositionless : program.isPositionless = true) {start : Nat} {rest : List Char}
    (hrest : dropBytes? input start = some rest) (fuel id : Nat) (param : Option String) :
    (program.call fuel id param input start).outcome? =
      (program.call fuel id param rest 0).outcome?.map (Outcome.moveBy start) := by
  obtain ⟨passed, rfl, rfl⟩ := dropBytes?_eq_some_iff.1 hrest
  exact call_moves hforward hpositionless (.append passed rest) fuel id param 0

/-- Matching does not depend on what precedes the offset where it starts.  Something in front of a
text moves every offset of an outcome by its size and changes nothing else, and a run with it ends
exactly if the run without it does.  So two texts that agree from an offset on give the same. -/
theorem ignores_preceding (hforward : program.Every fun part => part.isForward = true)
    (hpositionless : program.isPositionless = true) (id : Nat) (param : Option String) :
    (∀ (passed rest : List Char) (start : Nat),
      (∀ fuel, (program.call fuel id param (passed ++ rest) (Text.size passed + start)).outcome? =
        (program.call fuel id param rest start).outcome?.map (Outcome.moveBy (Text.size passed))) ∧
      ((∃ fuel, (program.call fuel id param (passed ++ rest) (Text.size passed + start)).isSome) ↔
        ∃ fuel, (program.call fuel id param rest start).isSome)) ∧
    ∀ (input input' rest : List Char) (start : Nat),
      dropBytes? input start = some rest → dropBytes? input' start = some rest → ∀ fuel,
        (program.call fuel id param input start).outcome? =
          (program.call fuel id param input' start).outcome? := by
  have hmoved := fun passed rest start fuel =>
    call_moves hforward hpositionless (.append passed rest) fuel id param start
  refine ⟨fun passed rest start => ⟨hmoved passed rest start, ?_⟩,
    fun input input' rest start hrest hrest' fuel => ?_⟩
  · -- runs that correspond need the same fuel
    refine exists_congr fun fuel => ?_
    have hsome := congrArg Option.isSome (hmoved passed rest start fuel)
    rw [Option.isSome_map, Run.outcome?, Option.isSome_map, Run.outcome?, Option.isSome_map] at hsome
    rw [hsome]
  · rw [call_rest hforward hpositionless hrest, call_rest hforward hpositionless hrest']

end Program

/-! ### A character and the same one again -/

namespace Preceded

/-- The second item is a reference to the first. -/
def pair : Program :=
  ⟨[⟨.simple "pair", false,
      [⟨[.any, .variable 0], some (.node "Pair" [.capture 0, .text])⟩], {}⟩]⟩

/-- The pair after a letter of two bytes, and after another letter of that size. -/
theorem pair_ignores_preceding :
    (pair.Every fun part => part.isForward = true) ∧ pair.isPositionless = true ∧
    (pair.call 1 0 none "aa".toList 0).outcome? =
      some (.success (.node "Pair" ⟨0, 2⟩ [.str "a", .str "aa"]) 2) ∧
    (pair.call 1 0 none ("é".toList ++ "aa".toList) (size "é".toList + 0)).outcome? =
      some (.success (.node "Pair" ⟨2, 4⟩ [.str "a", .str "aa"]) 4) ∧
    dropBytes? "éaa".toList 2 = some "aa".toList ∧ dropBytes? "ñaa".toList 2 = some "aa".toList ∧
    (pair.call 1 0 none "éaa".toList 2).outcome? =
      (pair.call 1 0 none "ñaa".toList 2).outcome? := by
  have hforward : pair.Every fun part => part.isForward = true := by decide
  have hpositionless : pair.isPositionless = true := rfl
  obtain ⟨hmoved, hagree⟩ := pair.ignores_preceding hforward hpositionless 0 none
  have hfirst : (pair.call 1 0 none "aa".toList 0).outcome? =
      some (.success (.node "Pair" ⟨0, 2⟩ [.str "a", .str "aa"]) 2) := rfl
  refine ⟨hforward, hpositionless, hfirst, ?_, by decide, by decide,
    hagree _ _ "aa".toList 2 (by decide) (by decide) 1⟩
  rw [(hmoved "é".toList "aa".toList 0).1 1, hfirst]
  rfl

end Preceded

end Peg
