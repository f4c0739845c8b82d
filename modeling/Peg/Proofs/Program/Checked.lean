/-
Peg/Proofs/Program/Checked.lean

The interpreter that checks its offsets.

`Program.checked` does every operation on offsets that could go out of range
only after it has looked at them.

* The text of a primitive matcher is cut out of the input.
* A backward match is subtracted from where it started.
* A mapper is given the span of its alternative and those of its captures,
  which are to lie between offsets of the input, in order if that is asked for.

Where a check fails the run is `trap`, about which nothing is assumed.  From an
offset of the text no check ever fails (`checked_eq`), whatever text the
recursion has made: so the checks can be left out, as `Program.matcher` does.
-/
import Peg.Proofs.Program.Bounds

namespace Peg

open Text

/-! ### Checks -/

/-- A match with its text cut out of the input. -/
def Run.cut (trap : Run Value) (input : List Char) (start : Nat) (run : Run String) : Run Value :=
  match run with
  | some (events, .success _ stop) =>
    match slice? input start stop with
    | some text => some (events, .success (.str (String.ofList text)) stop)
    | none => trap
  | run => run.mapValue .str

/-- A backward match that is not longer than the text before the start. -/
def Combinator.backtrackChecked {α : Type} (trap : Run α) (body : Matching α) : Matching α :=
  fun input start =>
  match takeBytes? input start with
  | none => .done (.failure ⟨"<backtrack>", start⟩)
  | some passed =>
    (body passed.reverse 0).resume
      (fun value length =>
        if length ≤ start then .done (.success value (start - length)) else trap)
      (fun _ => .done (.failure ⟨"<backtrack>", start⟩))

namespace Program

/-- An alternative whose mapper is only given spans within the input. -/
def matchAlternativeChecked (ordered : Bool) (trap : Run Value) (step : Step)
    (alternative : CompiledAlternative) (param : Option String) : Matching Value :=
  fun input start =>
  Run.andThen (matchItems step alternative.items param input start) fun captures stop =>
    let value := match alternative.mapper with
      | some mapper => mapper.evaluate captures input ⟨start, stop⟩
      | none => .ofItems (captures.map (·.value))
    if (Span.mk start stop).Within ordered input ∧
        ∀ capture ∈ captures, capture.span.Within ordered input then
      .done (.success value stop)
    else trap

/-- A rule of such alternatives. -/
def matchRuleChecked (program : Program) (ordered : Bool) (trap : Run Value) (step : Step)
    (id : Nat) (param : Option String) : Matching Value := fun input start =>
  match program.rules[id]? with
  | none => .done (.fault (.missingRule id))
  | some rule =>
    match Combinator.choice
        (rule.alternatives.map fun alternative =>
          matchAlternativeChecked ordered trap step alternative param) input start with
    | none => none
    | some (events, outcome) =>
      let outcome := finishRule rule input outcome
      some (.entered id param input start :: events ++ leaving id outcome, outcome)

/-- The meaning of a matcher, with all checks. -/
def checked (program : Program) (ordered : Bool) (trap : Run Value) : (fuel : Nat) → Step
  | 0, _, _, _, _ => none
  | fuel + 1, scope, m, input, start =>
    let step := checked program ordered trap fuel
    let text := fun (outcome : Outcome String) => Run.cut trap input start (Run.primitive outcome)
    match m with
    | .literal string => text (Primitive.literal string input start)
    | .regex expression description => text (Primitive.regex expression description input start)
    | .any => text (Primitive.anyChar input start)
    | .param => text (Primitive.literal (scope.param.getD "") input start)
    | .variable index => text (Primitive.literal (scope.textOf index) input start)
    | .rule id => program.matchRuleChecked ordered trap step id none input start
    | .template id argument =>
      program.matchRuleChecked ordered trap step id (some argument) input start
    | .negative inner =>
      Run.cut trap input start (Combinator.negative (step scope inner) input start)
    | .look inner => Combinator.look (step scope inner) input start
    | .attempt inner => Combinator.attempt (step scope inner) input start
    | .backtrack inner => Combinator.backtrackChecked trap (step scope inner) input start
    | .external _ (some transformer) inner => transformer (step scope inner) input start
    | .external name none _ => .done (.failure ⟨"<" ++ name ++ ">", start⟩)
    | .group items important =>
      (matchItems step items scope.param input start).mapValue (groupValue important)
    | .repeated inner .optional =>
      (Combinator.optional (step scope inner) input start).mapValue Value.ofOption
    | .repeated inner .any =>
      (Combinator.many fuel (step scope inner) input start).mapValue .list
    | .repeated inner .oneOrMore =>
      (Combinator.many1 fuel (step scope inner) input start).mapValue .list

/-- A rule with all checks, a literal for its parameter and so much fuel. -/
abbrev checkedCall (program : Program) (ordered : Bool) (trap : Run Value) (fuel id : Nat)
    (param : Option String) : Matching Value :=
  program.matchRuleChecked ordered trap (program.checked ordered trap fuel) id param

end Program

/-! ### Slices -/

section

variable {trap : Run Value} {input : List Char} {start : Nat}

/-- What is read can be cut out. -/
theorem Run.cut_eq {run : Run String}
    (h : run.Ensures (fun text stop => Primitive.IsReading input start (.success text stop))
      fun _ => True) : Run.cut trap input start run = run.mapValue .str := by
  rcases run with - | ⟨events, ⟨text, stop⟩ | failure | fault⟩
  · rfl
  · obtain ⟨passed, rest, hread, rfl, rfl⟩ := h
    simp only [cut, slice?_of_dropBytes? hread]
    rfl
  · rfl
  · rfl

theorem Run.cut_primitive {outcome : Outcome String} (h : Primitive.IsReading input start outcome) :
    Run.cut trap input start (Run.primitive outcome) = Run.primitive (outcome.map .str) := by
  rw [Run.primitive_map]
  refine Run.cut_eq (.primitive (fun text stop hsuccess => ?_) fun _ _ => trivial)
  rwa [← hsuccess]

theorem Run.cut_negative {α : Type} (body : Matching α) :
    Run.cut trap input start (Combinator.negative body input start) =
      (Combinator.negative body input start).mapValue .str := by
  refine Run.cut_eq ((Run.Ensures.any _).resume (fun _ _ _ => trivial) fun _ _ => ?_)
  split
  · rename_i c rest hrest
    exact ⟨[c], rest, hrest, by simp [Char.toString], rfl⟩
  · trivial

end

namespace Program

variable {program : Program} {ordered : Bool} {trap : Run Value} {step step' : Step}
variable {param : Option String} {input : List Char} {start : Nat}

/-! ### Spans -/

/-- Sequences are the same when their items are, at the offsets they come to. -/
theorem matchItems_congr {items : List Matcher}
    (h : ∀ item ∈ items, ∀ captures start, IsOffset input start →
      step ⟨param, captures⟩ item input start = step' ⟨param, captures⟩ item input start)
    (hwithin : ∀ item ∈ items, ∀ captures,
      (step' ⟨param, captures⟩ item).Follows (.within ordered))
    (hstart : IsOffset input start) :
    matchItems step items param input start = matchItems step' items param input start := by
  refine Combinator.sequence_congr (fun item hitem captures start hstart => ?_)
    (fun item hitem captures start hstart => ?_) hstart []
  · rw [h item hitem captures start hstart]
  · have hspan := (hwithin item hitem captures input start).ensures_within hstart
    have hstops : (step' ⟨param, captures⟩ item input start).Ensures
        (fun _ stop => IsOffset input stop) fun _ => True :=
      hspan.mono (fun _ _ hspan => hspan.stop) fun _ _ => trivial
    exact hstops.andThen fun _ _ hstop => hstop

/-- An alternative and its captures have spans within the input. -/
theorem matchAlternativeChecked_eq {alternative : CompiledAlternative}
    (h : ∀ item ∈ alternative.items, ∀ captures start, IsOffset input start →
      step ⟨param, captures⟩ item input start = step' ⟨param, captures⟩ item input start)
    (hwithin : ∀ item ∈ alternative.items, ∀ captures,
      (step' ⟨param, captures⟩ item).Follows (.within ordered))
    (hstart : IsOffset input start) :
    matchAlternativeChecked ordered trap step alternative param input start =
      matchAlternative step' alternative param input start := by
  rw [matchAlternativeChecked, matchAlternative, matchItems_congr h hwithin hstart]
  have hspan := (matchItems_follows hwithin input start).ensures_within hstart
  have hcaptures := matchItems_ensures (P := fun capture => capture.span.Within ordered input)
    (fun item hitem captures start hstart =>
      ((hwithin item hitem captures input start).ensures_within hstart).mono
        (fun _ _ hspan => ⟨hspan.stop, hspan⟩) fun _ _ => trivial) hstart
  refine (hspan.and hcaptures).andThen_congr fun captures stop hboth => ?_
  exact if_pos ⟨hboth.1, hboth.2.2⟩

theorem matchRuleChecked_eq {id : Nat}
    (h : ∀ rule, program.rules[id]? = some rule → ∀ alternative ∈ rule.alternatives,
      matchAlternativeChecked ordered trap step alternative param input start =
        matchAlternative step' alternative param input start) :
    program.matchRuleChecked ordered trap step id param input start =
      program.matchRule step' id param input start := by
  unfold matchRuleChecked matchRule
  rcases hrule : program.rules[id]? with - | rule
  · rfl
  · -- the choice decides, and what comes before and after it is the same
    have hchoice := Combinator.choice_congr (h rule hrule)
    rcases hrun : Combinator.choice (rule.alternatives.map fun alternative =>
      matchAlternative step' alternative param) input start with - | ⟨events, outcome⟩
    · simp only [hchoice, hrun]
    · simp only [hchoice, hrun]

/-! ### Backward matches -/

/-- A backward match is never longer than the text it was read from. -/
theorem backtrackChecked_eq {body body' : Matching Value}
    (h : ∀ text, body text 0 = body' text 0) (hwithin : body'.Follows (.within ordered)) :
    Combinator.backtrackChecked trap body input start =
      Combinator.backtrack body' input start := by
  unfold Combinator.backtrackChecked Combinator.backtrack
  rcases hpassed : takeBytes? input start with - | passed
  · rfl
  · have hbody := (hwithin passed.reverse 0).ensures_within (isOffset_zero _)
    dsimp only
    rw [h]
    -- the length of a success is an offset of what was passed
    generalize body' passed.reverse 0 = run at hbody
    rcases run with - | ⟨events, ⟨value, length⟩ | failure | fault⟩
    · rfl
    · have hle : length ≤ start := (isOffset_mirror hpassed hbody.stop).1
      simp only [Run.resume, if_pos hle]
    · rfl
    · rfl

/-! ### No check fails -/

/-- A rule passes all checks when the matchers of its program do. -/
theorem rule_checked (hprogram : program.Every (Matcher.Stays ordered)) {fuel : Nat}
    (h : ∀ scope {m : Matcher}, m.Every (Matcher.Stays ordered) → ∀ start, IsOffset input start →
      program.checked ordered trap fuel scope m input start =
        program.matcher fuel scope m input start) (id : Nat) (param : Option String)
    (hstart : IsOffset input start) :
    program.checkedCall ordered trap fuel id param input start =
      program.call fuel id param input start := by
  refine matchRuleChecked_eq fun rule hrule alternative halternative => ?_
  have hitems := fun item (hitem : item ∈ alternative.items) =>
    hprogram.ofItem hrule halternative hitem
  exact matchAlternativeChecked_eq (fun item hitem captures => h _ (hitems item hitem))
    (fun item hitem captures => matcher_follows_within hprogram fuel _ (hitems item hitem)) hstart

/-- From an offset of the text no check ever fails. -/
theorem checked_eq (hprogram : program.Every (Matcher.Stays ordered)) (fuel : Nat) (scope : Scope)
    {m : Matcher} (hm : m.Every (Matcher.Stays ordered)) (hstart : IsOffset input start) :
    program.checked ordered trap fuel scope m input start =
      program.matcher fuel scope m input start := by
  induction fuel generalizing scope m input start with
  | zero => rfl
  | succ fuel ih =>
    have hrule := fun id param =>
      rule_checked hprogram (fun scope _ hm _ hstart => ih scope hm hstart) id param hstart
    cases m with
    | literal string => exact Run.cut_primitive (Primitive.literal_isReading string)
    | regex expression description =>
      exact Run.cut_primitive (Primitive.regex_isReading expression description)
    | any => exact Run.cut_primitive Primitive.anyChar_isReading
    | rule id => exact hrule id none
    | param => exact Run.cut_primitive (Primitive.literal_isReading _)
    | «variable» index => exact Run.cut_primitive (Primitive.literal_isReading _)
    | template id argument => exact hrule id (some argument)
    | negative inner =>
      rw [checked, matcher, Run.cut_negative, Combinator.negative, Combinator.negative,
        ih scope hm.negative hstart]
    | look inner =>
      rw [checked, matcher, Combinator.look, Combinator.look, ih scope hm.look hstart]
    | attempt inner =>
      rw [checked, matcher, Combinator.attempt, Combinator.attempt, ih scope hm.attempt hstart]
    | backtrack inner =>
      -- the text read backward is another one, and its beginning is an offset of it
      exact backtrackChecked_eq (fun text => ih scope hm.backtrack (isOffset_zero text))
        (matcher_follows_within hprogram fuel scope hm.backtrack)
    | external name transformer inner => cases hm.self.internal
    | group items important =>
      rw [checked, matcher, matchItems_congr
        (fun item hitem captures start hstart => ih _ (hm.group item hitem) hstart)
        (fun item hitem captures =>
          matcher_follows_within hprogram fuel _ (hm.group item hitem)) hstart]
    | repeated inner repetition =>
      have hinner := fun start (hstart : IsOffset input start) => ih scope hm.repeated hstart
      have hstops : ∀ start, IsOffset input start →
          (program.matcher fuel scope inner input start).Ensures
            (fun _ stop => IsOffset input stop) fun _ => True := fun start hstart =>
        (matcher_within hprogram fuel scope hm.repeated hstart).mono
          (fun _ _ hspan => hspan.stop) fun _ _ => trivial
      cases repetition with
      | optional =>
        rw [checked, matcher, Combinator.optional, Combinator.optional, hinner start hstart]
      | any => rw [checked, matcher, Combinator.many_congr hinner hstops hstart]
      | oneOrMore => rw [checked, matcher, Combinator.many1_congr hinner hstops hstart]

theorem checkedCall_eq (hprogram : program.Every (Matcher.Stays ordered)) (trap : Run Value)
    (fuel id : Nat) (param : Option String) (hstart : IsOffset input start) :
    program.checkedCall ordered trap fuel id param input start =
      program.call fuel id param input start :=
  rule_checked hprogram (fun scope _ hm _ hstart => checked_eq hprogram fuel scope hm hstart) id
    param hstart

/-- Offsets stay valid.  A rule that is applied at an offset of a text passes every check on the
way, never reaches before the beginning of a text, and succeeds and fails at offsets of the text.
Without backward matching it ends where it started or after it, its spans are in order as well,
and so is every offset in its value. -/
theorem offsets_valid (hexternal : program.Every fun part => part.isExternal = false)
    (fuel id : Nat) (param : Option String) (hstart : IsOffset input start) :
    (∀ trap, program.checkedCall false trap fuel id param input start =
      program.call fuel id param input start) ∧
    (∀ events origin length, program.call fuel id param input start ≠
      some (events, .fault (.beforeBeginning origin length))) ∧
    (program.call fuel id param input start).Ensures
      (fun _ stop => IsOffset input stop) (fun failure => IsOffset input failure.position) ∧
    ((program.Every fun part => part.isBacktrack = false) →
      (∀ trap, program.checkedCall true trap fuel id param input start =
        program.call fuel id param input start) ∧
      (program.call fuel id param input start).Ensures
        (fun value stop => start ≤ stop ∧ value.InBounds input)
        (fun failure => start ≤ failure.position)) := by
  have hloose : program.Every (Matcher.Stays false) := hexternal.mono fun _ h => ⟨h, nofun⟩
  have hfollows := call_follows (hloose.mono fun _ => Course.within_permits) fuel id param input
    start
  refine ⟨fun trap => checkedCall_eq hloose trap fuel id param hstart,
    fun events origin length hrun => ?_, ?_, fun hbacktrack => ?_⟩
  · rw [hrun] at hfollows
    obtain ⟨rule, hmissing⟩ := hfollows
    cases hmissing
  · exact (hfollows.ensures_within hstart).mono (fun _ _ hspan => hspan.stop)
      fun _ hspan => hspan.stop
  · -- without backward matches the slices are checked in order, too
    have hstays : program.Every (Matcher.Stays true) :=
      (hexternal.and hbacktrack).mono fun _ h => ⟨h.1, fun _ => h.2⟩
    have hforward := (call_follows (hstays.mono fun _ => Course.within_permits) fuel id param
      input start).ensures_within hstart
    refine ⟨fun trap => checkedCall_eq hstays trap fuel id param hstart, ?_⟩
    refine (hforward.and (call_inBounds hstays fuel id param hstart)).mono ?_ ?_
    · exact fun value stop h => ⟨h.1.inOrder rfl, h.2⟩
    · exact fun failure h => h.1.inOrder rfl

end Program

/-! ### A letter of two bytes -/

namespace TwoBytes

/-- The letter is read backward, and the span of the match ends before it starts. -/
def before : Program :=
  ⟨[⟨.simple "before", false,
      [⟨[.backtrack (.literal "é")], some (.node "before" [.start, .stop])⟩], {}⟩]⟩

/-- The letter is read after another one. -/
def after : Program :=
  ⟨[⟨.simple "after", false,
      [⟨[.literal "a", .any], some (.node "after" [.startOf 1, .endOf 1, .text])⟩], {}⟩]⟩

theorem letter_offsets_valid :
    (IsOffset "aéb".toList 3 ∧
      (∀ trap, before.checkedCall false trap 2 0 none "aéb".toList 3 =
        before.call 2 0 none "aéb".toList 3) ∧
      before.call 2 0 none "aéb".toList 3 =
        some ([.entered 0 none "aéb".toList 3, .matched 0 1],
          .success (.node "before" ⟨3, 1⟩ [.int 3, .int 1]) 1) ∧
      IsOffset "aéb".toList 1) ∧
    (∀ trap, after.checkedCall true trap 1 0 none "aéb".toList 0 =
      after.call 1 0 none "aéb".toList 0) ∧
    after.call 1 0 none "aéb".toList 0 =
      some ([.entered 0 none "aéb".toList 0, .matched 0 3],
        .success (.node "after" ⟨0, 3⟩ [.int 1, .int 3, .str "aé"]) 3) ∧
    0 ≤ 3 ∧ (Value.node "after" ⟨0, 3⟩ [.int 1, .int 3, .str "aé"]).InBounds "aéb".toList := by
  have hthree : IsOffset "aéb".toList 3 := by decide
  have hbefore : before.call 2 0 none "aéb".toList 3 =
      some ([.entered 0 none "aéb".toList 3, .matched 0 1],
        .success (.node "before" ⟨3, 1⟩ [.int 3, .int 1]) 1) := rfl
  have hafter : after.call 1 0 none "aéb".toList 0 =
      some ([.entered 0 none "aéb".toList 0, .matched 0 3],
        .success (.node "after" ⟨0, 3⟩ [.int 1, .int 3, .str "aé"]) 3) := rfl
  obtain ⟨hchecked, -, hends, -⟩ := before.offsets_valid (by decide) 2 0 none hthree
  obtain ⟨-, -, -, hordered⟩ := after.offsets_valid (by decide) 1 0 none
    (isOffset_zero "aéb".toList)
  obtain ⟨hchecked', hvalue⟩ := hordered (by decide)
  exact ⟨⟨hthree, hchecked, hbefore, hends.success hbefore⟩, hchecked', hafter,
    hvalue.success hafter⟩

end TwoBytes

end Peg
