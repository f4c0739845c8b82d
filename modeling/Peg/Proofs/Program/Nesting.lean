/-
Peg/Proofs/Program/Nesting.lean

Syntax trees nest like the text they cover.

A run that goes from one offset to a later one gives a value that nests in the
range between them:

    start ≤ stop   and   value.NestsIn ⟨start, stop⟩

This composes.  The captures of a sequence nest in its range because each of
them nests in a part of it, and a mapper makes nodes of that range out of
them.  Blanks that are skipped come after the value is made, so they only
widen the range.  Lookahead, backward matching and functions of the host give
values that were read elsewhere, and are left out.
-/
import Peg.Proofs.Program.Ensures
import Peg.Proofs.Program.Course
import Peg.Proofs.Value.Nesting

namespace Peg

open Text

/-- A run whose value nests in the range it was read from. -/
abbrev Run.Nests (start : Nat) (run : Run Value) : Prop :=
  run.Ensures (fun value stop => start ≤ stop ∧ value.NestsIn ⟨start, stop⟩) fun _ => True

/-- Values of a run that nest in the range it was read from. -/
abbrev Run.AllNest (start : Nat) (run : Run (List Value)) : Prop :=
  run.Ensures (fun values stop => start ≤ stop ∧ ∀ value ∈ values, value.NestsIn ⟨start, stop⟩)
    fun _ => True

/-- Matchers that give what is read between where they start and where they stop. -/
def Matcher.givesWhatItReads : Matcher → Bool
  | .look _ | .backtrack _ | .external _ _ _ => false
  | _ => true

variable {input : List Char} {start middle stop : Nat}

/-- What comes before a range widens it. -/
theorem Value.NestsIn.after {value : Value} (h : value.NestsIn ⟨middle, stop⟩)
    (hle : start ≤ middle) : value.NestsIn ⟨start, stop⟩ := by
  apply Value.NestsIn.widen _ _ h
  · exact hle
  · exact Nat.le_refl stop

/-- What comes after a range widens it. -/
theorem Value.NestsIn.before {value : Value} (h : value.NestsIn ⟨start, middle⟩)
    (hle : middle ≤ stop) : value.NestsIn ⟨start, stop⟩ := by
  apply Value.NestsIn.widen _ _ h
  · exact Nat.le_refl start
  · exact hle

namespace Run

/-- A text has no nodes. -/
theorem Nests.text {outcome : Outcome String} (h : Primitive.IsReading input start outcome) :
    (Run.primitive (outcome.map Value.str)).Nests start := by
  refine .primitive (fun value stop hsuccess => ?_) fun _ _ => trivial
  obtain ⟨text, rfl, rfl⟩ := Outcome.map_eq_success hsuccess
  obtain ⟨passed, rest, -, -, rfl⟩ := h
  exact ⟨Nat.le_add_right .., trivial⟩

end Run

/-- A value and those that are read after it. -/
theorem Value.nests_cons {value : Value} {values : List Value}
    (hvalue : start ≤ middle ∧ value.NestsIn ⟨start, middle⟩)
    (hvalues : middle ≤ stop ∧ ∀ value ∈ values, value.NestsIn ⟨middle, stop⟩) :
    start ≤ stop ∧ ∀ member ∈ value :: values, member.NestsIn ⟨start, stop⟩ := by
  refine ⟨hvalue.1.trans hvalues.1, List.forall_mem_cons.2 ⟨hvalue.2.before hvalues.1, ?_⟩⟩
  exact fun member hmember => (hvalues.2 member hmember).after hvalue.1

theorem Combinator.many_nests {body : Matching Value}
    (h : ∀ start, (body input start).Nests start) (fuel start : Nat) :
    (many fuel body input start).AllNest start := by
  refine many_ensures (I := fun _ => True)
    (P := fun start values stop => start ≤ stop ∧
      ∀ value ∈ values, Value.NestsIn ⟨start, stop⟩ value)
    (fun start _ => ⟨Nat.le_refl start, nofun⟩) (fun start _ => ?_) trivial
  refine (h start).mono (fun value stop hvalue => ⟨trivial, ?_⟩) fun _ h => h
  exact fun values last hvalues => Value.nests_cons hvalue hvalues

namespace Program

variable {program : Program} {step : Step} {param : Option String}

/-- The captures of a sequence nest in its range. -/
theorem matchItems_nests {items : List Matcher}
    (h : ∀ item ∈ items, ∀ captures start,
      (step ⟨param, captures⟩ item input start).Nests start) (start : Nat) :
    (matchItems step items param input start).Ensures
      (fun captures stop => start ≤ stop ∧
        ∀ capture ∈ captures, capture.value.NestsIn ⟨start, stop⟩) fun _ => True := by
  refine matchItems_keeps (fun item hitem captures middle hcaptures => ?_)
    ⟨Nat.le_refl _, nofun⟩
  refine (h item hitem captures middle).mono (fun value stop hvalue => ?_) fun _ h => h
  refine ⟨hcaptures.1.trans hvalue.1, fun capture hcapture => ?_⟩
  rcases List.mem_append.1 hcapture with hcapture | hcapture
  · exact (hcaptures.2 capture hcapture).before hvalue.1
  · rw [List.mem_singleton.1 hcapture]
    exact hvalue.2.after hcaptures.1

theorem matchAlternative_nests {alternative : CompiledAlternative}
    (h : ∀ item ∈ alternative.items, ∀ captures start,
      (step ⟨param, captures⟩ item input start).Nests start) (start : Nat) :
    (matchAlternative step alternative param input start).Nests start := by
  refine (matchItems_nests h start).andThen fun captures stop hcaptures => ⟨hcaptures.1, ?_⟩
  -- without a mapper the values of the items are all there is
  rcases alternative.mapper with - | mapper
  · exact Value.nestsIn_hereditary.ofItems (List.forall_mem_map.2 hcaptures.2)
  · exact MapperExpr.nestsIn_evaluate hcaptures.2 hcaptures.1 mapper

/-- Blanks after a match widen its range. -/
theorem matchRule_nests {id : Nat}
    (h : ∀ rule, program.rules[id]? = some rule → ∀ alternative ∈ rule.alternatives,
      ∀ item ∈ alternative.items, ∀ captures start,
        (step ⟨param, captures⟩ item input start).Nests start) (start : Nat) :
    (program.matchRule step id param input start).Nests start := by
  refine matchRule_ensures (fun rule hrule alternative halternative =>
    matchAlternative_nests (h rule hrule alternative halternative) start) ?_
  intro rule hrule _ value stop hvalue
  have hstay : Course.forward.Along input stop [] stop := Nat.le_refl stop
  have hblank : stop ≤ Primitive.skipBlank input stop := Course.forward.along_skipBlank hstay
  exact ⟨hvalue.1.trans hblank, hvalue.2.before hblank⟩

/-- Every matcher gives values that nest in the range it has read. -/
theorem matcher_nests (hprogram : program.Every fun part => part.givesWhatItReads = true)
    (fuel : Nat) (scope : Scope) {m : Matcher}
    (hm : m.Every fun part => part.givesWhatItReads = true) (start : Nat) :
    (program.matcher fuel scope m input start).Nests start := by
  induction fuel generalizing scope m start with
  | zero => trivial
  | succ fuel ih =>
    have hrule : ∀ id param, (program.call fuel id param input start).Nests start :=
      fun id param => matchRule_nests (fun rule hrule alternative halternative item hitem captures =>
        ih ⟨param, captures⟩ (hprogram.ofItem hrule halternative hitem)) start
    cases m with
    | literal string => exact .text (Primitive.literal_isReading string)
    | regex expression description => exact .text (Primitive.regex_isReading expression description)
    | any => exact .text Primitive.anyChar_isReading
    | rule id => exact hrule id none
    | param => exact .text (Primitive.literal_isReading _)
    | «variable» index => exact .text (Primitive.literal_isReading _)
    | template id argument => exact hrule id (some argument)
    | negative inner =>
      -- what the body gives is forgotten, whatever it is
      refine .mapValue Value.str ((Run.Ensures.any _).resume (fun _ _ _ => trivial) fun _ _ => ?_)
      split
      · exact ⟨Nat.le_add_right .., trivial⟩
      · trivial
    | look inner => cases hm.self
    | attempt inner => exact Combinator.attempt_ensures (ih scope hm.attempt start) fun _ _ => trivial
    | backtrack inner => cases hm.self
    | external name transformer inner => cases hm.self
    | group items important =>
      have hcaptures := matchItems_nests (fun item hitem captures =>
        ih ⟨scope.param, captures⟩ (hm.group item hitem)) start
      refine .mapValue (groupValue important) (hcaptures.mono (fun captures _ h => ?_) fun _ h => h)
      exact ⟨h.1, Value.nestsIn_hereditary.ofItems
        (Value.Hereditary.project (List.forall_mem_map.2 h.2) important)⟩
    | repeated inner repetition =>
      have hinner := ih scope hm.repeated
      have hlist : ∀ {run : Run (List Value)}, run.AllNest start →
          (run.mapValue .list).Nests start := fun h =>
        .mapValue Value.list (h.mono (fun _ _ h => ⟨h.1, Value.allNestIn_iff.2 h.2⟩) fun _ h => h)
      cases repetition with
      | optional =>
        exact .mapValue Value.ofOption (Combinator.optional_ensures
          (P := fun value stop => start ≤ stop ∧ (Value.ofOption value).NestsIn ⟨start, stop⟩)
          (hinner start) ⟨Nat.le_refl _, trivial⟩)
      | any => exact hlist (Combinator.many_nests hinner fuel start)
      | oneOrMore =>
        refine hlist ((hinner start).andThen fun first middle hfirst => ?_)
        refine .mapValue (first :: ·) ((Combinator.many_nests hinner fuel middle).mono ?_ fun _ h => h)
        exact fun values stop hvalues => Value.nests_cons hfirst hvalues

/-- Syntax trees nest like the text they cover.  Whatever its mappers do, a rule gives a value all
of whose nodes have spans within what the rule has read, and within the span of every node that
they are inside of. -/
theorem values_nest (hprogram : program.Every fun part => part.givesWhatItReads = true) :
    ∀ fuel id param input start events value stop,
      program.call fuel id param input start = some (events, .success value stop) →
        (∀ kind span children, .node kind span children ∈ value.parts →
          span.IsInside ⟨start, stop⟩) ∧
        ∀ kind span children, .node kind span children ∈ value.parts →
          ∀ kind' inner children', .node kind' inner children' ∈ Value.partsOfAll children →
            inner.IsInside span := by
  intro fuel id param input start events value stop hrun
  have hcall : (program.call fuel id param input start).Nests start :=
    matchRule_nests (fun rule hrule alternative halternative item hitem captures =>
      matcher_nests hprogram fuel ⟨param, captures⟩ (hprogram.ofItem hrule halternative hitem)) start
  obtain ⟨-, hvalue⟩ := hcall.success hrun
  constructor
  · intro kind span children hnode
    exact (hvalue.node hnode).1
  · intro kind span children hnode kind' inner children' hinner
    exact ((hvalue.node hnode).2.node hinner).1

end Program

/-! ### Lists in parentheses -/

namespace Enclosed

/-- Characters and lists of them in parentheses.  A list is a node that has its members twice. -/
def program : Program :=
  ⟨[⟨.simple "list", false,
      [⟨[.template 2 "(", .repeated (.rule 1) .any, .template 2 ")"],
        some (.node "list" [.concat [.capture 1, .capture 1]])⟩], {}⟩,
    ⟨.simple "member", false,
      [⟨[.rule 0], none⟩,
        ⟨[.negative (.literal ")")], some (.node "letter" [.capture 0])⟩], {}⟩,
    ⟨.template none "mark", true, [⟨[.param], none⟩], {}⟩]⟩

/-- The members of a list, twice. -/
def list (span : Span) (members : List Value) : Value :=
  .node "list" span [.list (members ++ members)]

def letter (span : Span) (text : String) : Value :=
  .node "letter" span [.str text]

/-- A list of a list and a letter, with blanks after both lists. -/
def tree : Value :=
  list ⟨0, 9⟩ [list ⟨1, 5⟩ [letter ⟨2, 3⟩ "b"], letter ⟨5, 6⟩ "a"]

theorem tree_nests :
    (program.call 12 0 none "((b) a)  ".toList 0).outcome? = some (.success tree 9) ∧
    (∀ kind span children, .node kind span children ∈ tree.parts → span.IsInside ⟨0, 9⟩) ∧
    ∀ kind span children, .node kind span children ∈ tree.parts →
      ∀ kind' inner children', .node kind' inner children' ∈ Value.partsOfAll children →
        inner.IsInside span := by
  have hrun : (program.call 12 0 none "((b) a)  ".toList 0).outcome? =
      some (.success tree 9) := by
    have htext : "((b) a)  ".toList = ['(', '(', 'b', ')', ' ', 'a', ')', ' ', ' '] := rfl
    rw [htext]
    rfl
  obtain ⟨⟨events, outcome⟩, hevents, houtcome⟩ := Option.map_eq_some_iff.1 hrun
  obtain rfl : outcome = .success tree 9 := houtcome
  exact ⟨hrun,
    Program.values_nest (by decide) 12 0 none "((b) a)  ".toList 0 events tree 9 hevents⟩

end Enclosed

end Peg
