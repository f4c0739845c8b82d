/-
Peg/Proofs/Program/Host.lean

What functions of the host can do to a run.

A function of the host may call the matcher it is given on any text and at any
offset, and may say that it ended anywhere: inside a character, past the end,
before the start.  Two things are shown of programs with such functions.

* No text is cut out of range, and no rule is looked up that there is not.
  The interpreter that checks every cut and every look-up before it is made
  (`Program.guarded`) is the interpreter itself, whatever the functions do and
  wherever a match starts (`guarded_eq`).
* A fault of a run is one of a backward match whose body is said to have read
  more than there was (`Program.Overruns`).  No other operation on offsets is
  without a result.  There are none where no function of the host says that it
  went past the end of its text when its matcher did not (`StaysInside`).

The second is not nothing.  The length of a backward match is subtracted from
where it started, and what a function of the host says may be longer than
that: then a run does not end with an outcome.
-/
import Peg.Proofs.Program.Checked
import Peg.Proofs.Run.Ends
import Peg.Proofs.Run.Faults

namespace Peg

open Text

/-! ### Functions of the host -/

/-- A function of the host has no faults of its own, but those of the matches it asks for. -/
def Transformer.PassesFaults (transformer : Transformer) : Prop :=
  ∀ (inner : Matching Value) input start events fault,
    transformer inner input start = some (events, .fault fault) →
      ∃ input' start' events', inner input' start' = some (events', .fault fault)

theorem Transformer.PassesFaults.faults {transformer : Transformer} {P : Fault → Prop}
    (h : transformer.PassesFaults) {inner : Matching Value}
    (hinner : ∀ input start, (inner input start).FaultsOnly P) (input : List Char) (start : Nat) :
    (transformer inner input start).FaultsOnly P := by
  intro events fault hrun
  obtain ⟨input', start', events', hinner'⟩ := h inner input start events fault hrun
  exact hinner input' start' events' fault hinner'

/-- Matchers that call rules of the program, and functions of the host without faults. -/
def Matcher.IsHosted (program : Program) : Matcher → Prop
  | .rule id | .template id _ => id < program.rules.length
  | .external _ (some transformer) _ => transformer.PassesFaults
  | _ => True

/-- A run that does not end past the end of the text, unless it started there. -/
abbrev Run.Inside (input : List Char) (start : Nat) (run : Run Value) : Prop :=
  run.Ensures (fun _ stop => stop ≤ max start (size input)) fun _ => True

/-- A function of the host that does not go past the end of a text when its matcher does not. -/
def Transformer.StaysInside (transformer : Transformer) : Prop :=
  ∀ inner : Matching Value, (∀ input start, (inner input start).Inside input start) →
    ∀ input start, (transformer inner input start).Inside input start

/-- Matchers whose function of the host, if they are one, stays inside. -/
def Matcher.StaysInside : Matcher → Prop
  | .external _ (some transformer) _ => transformer.StaysInside
  | _ => True

theorem Primitive.skipBlank_inside {input : List Char} {start stop : Nat}
    (h : stop ≤ max start (size input)) : skipBlank input stop ≤ max start (size input) := by
  unfold skipBlank
  split
  · rename_i rest hrest
    have hsize := size_of_dropBytes? hrest
    rw [← rest.takeWhile_append_dropWhile (p := isBlank), size_append] at hsize
    omega
  · exact h

/-- A run that is not cut short and has no fault ends with an outcome. -/
theorem Run.FaultsOnly.ends {α : Type} {P : Fault → Prop} {run : Run α} (h : run.FaultsOnly P)
    (hsome : run.isSome) (hnone : ∀ fault, ¬ P fault) : run.Ends := by
  rcases run with - | ⟨events, ⟨value, stop⟩ | failure | fault⟩
  · cases hsome
  · exact .success _ _ _
  · exact .failure _ _
  · exact absurd (h _ _ rfl) (hnone fault)

namespace Program

/-- A fault of a program: the body of a backward matcher succeeds on some text further on than that
text goes. -/
inductive Overruns (program : Program) : Fault → Prop
  | past {inner : Matcher} (fuel : Nat) (scope : Scope) (text : List Char) (events : List Event)
      (value : Value) {length : Nat} (hcontains : program.Contains (.backtrack inner))
      (hrun : program.matcher fuel scope inner text 0 = some (events, .success value length))
      (hlong : Text.size text < length) :
      Overruns program (.beforeBeginning (Text.size text) length)

/-! ### Guards -/

/-- A rule that is looked up only if there is one. -/
def matchRuleGuarded (program : Program) (trap : Run Value) (step : Step) (id : Nat)
    (param : Option String) : Matching Value := fun input start =>
  if id < program.rules.length then program.matchRule step id param input start else trap

/-- The meaning of a matcher with a guard for every text that is cut and every rule that is looked
up. -/
def guarded (program : Program) (trap : Run Value) : (fuel : Nat) → Step
  | 0, _, _, _, _ => none
  | fuel + 1, scope, m, input, start =>
    let step := guarded program trap fuel
    let text := fun (outcome : Outcome String) => Run.cut trap input start (Run.primitive outcome)
    match m with
    | .literal string => text (Primitive.literal string input start)
    | .regex expression description => text (Primitive.regex expression description input start)
    | .any => text (Primitive.anyChar input start)
    | .param => text (Primitive.literal (scope.param.getD "") input start)
    | .variable index => text (Primitive.literal (scope.textOf index) input start)
    | .rule id => program.matchRuleGuarded trap step id none input start
    | .template id argument => program.matchRuleGuarded trap step id (some argument) input start
    | .negative inner =>
      Run.cut trap input start (Combinator.negative (step scope inner) input start)
    | .look inner => Combinator.look (step scope inner) input start
    | .attempt inner => Combinator.attempt (step scope inner) input start
    | .backtrack inner => Combinator.backtrack (step scope inner) input start
    | .external _ (some transformer) inner => transformer (step scope inner) input start
    | .external name none _ => .done (.failure ⟨"<" ++ name ++ ">", start⟩)
    | .group items important =>
      (matchItems step items scope.param input start).mapValue (groupValue important)
    | .repeated inner .optional =>
      (Combinator.optional (step scope inner) input start).mapValue Value.ofOption
    | .repeated inner .any =>
      (Combinator.many fuel (step scope inner) input start).mapValue .list
    | .repeated inner .oneOrMore =>
      (Combinator.many1 fuel (step scope inner) input start).mapValue .list

/-- A rule with all guards, a literal for its parameter and so much fuel. -/
abbrev guardedCall (program : Program) (trap : Run Value) (fuel id : Nat)
    (param : Option String) : Matching Value :=
  program.matchRuleGuarded trap (program.guarded trap fuel) id param

variable {program : Program} {step step' : Step} {param : Option String} {trap : Run Value}

/-! ### No guard is needed -/

/-- A rule only depends on what its matchers do, so its guard is all there is to it. -/
theorem matchRuleGuarded_eq {id : Nat} (hid : id < program.rules.length)
    (h : ∀ rule, program.rules[id]? = some rule → ∀ alternative ∈ rule.alternatives,
      ∀ item ∈ alternative.items, ∀ captures,
        step ⟨param, captures⟩ item = step' ⟨param, captures⟩ item) :
    program.matchRuleGuarded trap step id param = program.matchRule step' id param := by
  funext input start
  rw [matchRuleGuarded, if_pos hid]
  unfold matchRule
  have hrule := List.getElem?_eq_getElem hid
  rw [hrule]
  have halternatives : (program.rules[id].alternatives.map fun alternative =>
      matchAlternative step alternative param) =
      program.rules[id].alternatives.map fun alternative =>
        matchAlternative step' alternative param := by
    refine List.map_congr_left fun alternative halternative => ?_
    unfold matchAlternative
    rw [matchItems_ext (h _ hrule alternative halternative)]
  dsimp only
  rw [halternatives]

/-- Whatever the functions of the host do, no guard ever makes a difference. -/
theorem guarded_eq (hprogram : program.Every (Matcher.IsHosted program)) (trap : Run Value)
    (fuel : Nat) (scope : Scope) {m : Matcher} (hm : m.Every (Matcher.IsHosted program)) :
    program.guarded trap fuel scope m = program.matcher fuel scope m := by
  induction fuel generalizing scope m with
  | zero => rfl
  | succ fuel ih =>
    funext input start
    have hrule : ∀ id param, id < program.rules.length →
        program.matchRuleGuarded trap (program.guarded trap fuel) id param =
          program.matchRule (program.matcher fuel) id param := fun id param hid =>
      matchRuleGuarded_eq hid fun rule hrule alternative halternative item hitem captures =>
        ih _ (hprogram.ofItem hrule halternative hitem)
    cases m with
    | literal string => exact Run.cut_primitive (Primitive.literal_isReading string)
    | regex expression description =>
      exact Run.cut_primitive (Primitive.regex_isReading expression description)
    | any => exact Run.cut_primitive Primitive.anyChar_isReading
    | rule id => exact congrFun (congrFun (hrule id none hm.self) input) start
    | param => exact Run.cut_primitive (Primitive.literal_isReading _)
    | «variable» index => exact Run.cut_primitive (Primitive.literal_isReading _)
    | template id argument => exact congrFun (congrFun (hrule id (some argument) hm.self) input) start
    | negative inner => rw [guarded, matcher, Run.cut_negative, ih scope hm.negative]
    | look inner => rw [guarded, matcher, ih scope hm.look]
    | attempt inner => rw [guarded, matcher, ih scope hm.attempt]
    | backtrack inner => rw [guarded, matcher, ih scope hm.backtrack]
    | external name transformer inner =>
      cases transformer with
      | none => rfl
      | some transformer =>
        -- the function is given the same matcher, so it does not matter what it does with it
        rw [guarded, matcher, ih scope hm.external]
    | group items important =>
      rw [guarded, matcher, matchItems_ext fun item hitem captures => ih _ (hm.group item hitem)]
    | repeated inner repetition =>
      cases repetition <;> rw [guarded, matcher, ih scope hm.repeated]

/-! ### Faults -/

theorem matchItems_faults {P : Fault → Prop} {items : List Matcher}
    (h : ∀ item ∈ items, ∀ captures input start,
      (step ⟨param, captures⟩ item input start).FaultsOnly P) {input : List Char} {start : Nat} :
    (matchItems step items param input start).FaultsOnly P := by
  refine Combinator.sequence_faults (fun matching hmatching captures input start => ?_) []
  obtain ⟨item, hitem, rfl⟩ := List.mem_map.1 hmatching
  exact (h item hitem captures input start).andThen fun _ _ => .success _ _ _

theorem matchRule_faults {P : Fault → Prop} (param : Option String) {id : Nat}
    (hid : id < program.rules.length)
    (h : ∀ rule, program.rules[id]? = some rule → ∀ alternative ∈ rule.alternatives,
      ∀ item ∈ alternative.items, ∀ captures input start,
        (step ⟨param, captures⟩ item input start).FaultsOnly P) (input : List Char) (start : Nat) :
    (program.matchRule step id param input start).FaultsOnly P := by
  have hrule := List.getElem?_eq_getElem hid
  have hchoice : (Combinator.choice (program.rules[id].alternatives.map fun alternative =>
      matchAlternative step alternative param) input start).FaultsOnly P := by
    refine Combinator.choice_faults fun matching hmatching => ?_
    obtain ⟨alternative, halternative, rfl⟩ := List.mem_map.1 hmatching
    refine Run.FaultsOnly.andThen ?_ fun _ _ => .success _ _ _
    exact matchItems_faults (h _ hrule alternative halternative)
  unfold matchRule
  rw [hrule]
  dsimp only
  generalize Combinator.choice _ input start = run at hchoice
  rcases run with - | ⟨events, ⟨value, stop⟩ | failure | fault⟩
  · exact .of_none
  · exact .success _ _ _
  · exact .failure _ _
  · exact .fault _ (hchoice _ _ rfl)

/-- A fault is one of a backward match that overruns, wherever a run starts. -/
theorem matcher_faults (hprogram : program.Every (Matcher.IsHosted program)) (fuel : Nat)
    (scope : Scope) {m : Matcher} (hm : program.Contains m) (input : List Char) (start : Nat) :
    (program.matcher fuel scope m input start).FaultsOnly program.Overruns := by
  induction fuel generalizing scope m input start with
  | zero => exact .of_none
  | succ fuel ih =>
    have htext : ∀ {outcome : Outcome String}, Primitive.IsReading input start outcome →
        (Run.primitive (outcome.map Value.str)).FaultsOnly program.Overruns := by
      intro outcome houtcome
      rcases outcome with ⟨text, stop⟩ | failure | fault
      · exact .success _ _ _
      · exact .failure _ _
      · exact houtcome.elim
    have hrule := fun id param (hid : id < program.rules.length) =>
      matchRule_faults param hid (fun rule hrule alternative halternative item hitem
        captures => ih _ (.ofItem hrule halternative hitem)) input start
    have hhosted := (hm.every hprogram).self
    cases m with
    | literal string => exact htext (Primitive.literal_isReading string)
    | regex expression description => exact htext (Primitive.regex_isReading expression description)
    | any => exact htext Primitive.anyChar_isReading
    | rule id => exact hrule id none hhosted
    | param => exact htext (Primitive.literal_isReading _)
    | «variable» index => exact htext (Primitive.literal_isReading _)
    | template id argument => exact hrule id (some argument) hhosted
    | negative inner =>
      exact (Combinator.negative_faults (ih scope (hm.ofBody rfl) input start)).mapValue _
    | look inner => exact Combinator.look_faults (ih scope (hm.ofBody rfl) input start)
    | attempt inner => exact Combinator.attempt_faults (ih scope (hm.ofBody rfl) input start)
    | backtrack inner =>
      -- the only fault that is not one of a part
      refine Combinator.backtrack_faults (fun text => ih scope (hm.ofBody rfl) text 0) ?_
      exact fun text events value length hrun hlong =>
        .past fuel scope text events value hm hrun hlong
    | external name transformer inner =>
      cases transformer with
      | none => exact .failure _ _
      | some transformer =>
        exact Transformer.PassesFaults.faults hhosted (ih scope (hm.ofBody rfl)) input start
    | group items important =>
      exact (matchItems_faults fun item hitem captures =>
        ih _ (hm.ofMember hitem)).mapValue _
    | repeated inner repetition =>
      have hinner := ih scope (hm.ofBody rfl) input
      cases repetition with
      | optional => exact (Combinator.optional_faults (hinner start)).mapValue _
      | any => exact (Combinator.many_faults hinner fuel).mapValue _
      | oneOrMore =>
        refine Run.FaultsOnly.mapValue _ ((hinner start).andThen fun first stop => ?_)
        exact (Combinator.many_faults hinner fuel).mapValue _

theorem call_faults (hprogram : program.Every (Matcher.IsHosted program)) {id : Nat}
    (hid : id < program.rules.length) (fuel : Nat) (param : Option String) (input : List Char)
    (start : Nat) : (program.call fuel id param input start).FaultsOnly program.Overruns :=
  matchRule_faults param hid (fun _ hrule _ halternative _ hitem _ =>
    matcher_faults hprogram fuel _ (.ofItem hrule halternative hitem)) input start

/-! ### Functions that stay inside -/

theorem matchItems_inside {items : List Matcher} {input : List Char} {start : Nat}
    (h : ∀ item ∈ items, ∀ captures start,
      (step ⟨param, captures⟩ item input start).Inside input start) :
    (matchItems step items param input start).Ensures
      (fun _ stop => stop ≤ max start (Text.size input)) fun _ => True := by
  refine matchItems_keeps (P := fun _ stop => stop ≤ max start (Text.size input))
    (fun item hitem captures middle hmiddle => ?_) (Nat.le_max_left ..)
  refine (h item hitem captures middle).mono (fun value stop hstop => ?_) fun _ h => h
  exact hstop.trans (Nat.max_le.2 ⟨hmiddle, Nat.le_max_right ..⟩)

theorem matchRule_inside (id : Nat) (param : Option String) {input : List Char} (start : Nat)
    (h : ∀ rule, program.rules[id]? = some rule → ∀ alternative ∈ rule.alternatives,
      ∀ item ∈ alternative.items, ∀ captures start,
        (step ⟨param, captures⟩ item input start).Inside input start) :
    (program.matchRule step id param input start).Inside input start := by
  refine matchRule_ensures (fun rule hrule alternative halternative => ?_)
    fun _ _ _ _ _ => Primitive.skipBlank_inside
  exact (matchItems_inside (h rule hrule alternative halternative)).andThen fun _ _ hstop => hstop

theorem matcher_inside (hprogram : program.Every Matcher.StaysInside) (fuel : Nat) (scope : Scope)
    {m : Matcher} (hm : m.Every Matcher.StaysInside) (input : List Char) (start : Nat) :
    (program.matcher fuel scope m input start).Inside input start := by
  induction fuel generalizing scope m input start with
  | zero => trivial
  | succ fuel ih =>
    have htext : ∀ {outcome : Outcome String}, Primitive.IsReading input start outcome →
        (Run.primitive (outcome.map Value.str)).Inside input start := by
      intro outcome houtcome
      rcases outcome with ⟨text, stop⟩ | failure | fault
      · obtain ⟨passed, rest, hread, -, rfl⟩ := houtcome
        have hsize := size_of_dropBytes? hread
        rw [size_append] at hsize
        show start + Text.size passed ≤ max start (Text.size input)
        omega
      · trivial
      · trivial
    have hrule := fun id param => matchRule_inside id param start
      fun rule hrule alternative halternative item hitem captures =>
        ih _ (hprogram.ofItem hrule halternative hitem) input
    cases m with
    | literal string => exact htext (Primitive.literal_isReading string)
    | regex expression description => exact htext (Primitive.regex_isReading expression description)
    | any => exact htext Primitive.anyChar_isReading
    | rule id => exact hrule id none
    | param => exact htext (Primitive.literal_isReading _)
    | «variable» index => exact htext (Primitive.literal_isReading _)
    | template id argument => exact hrule id (some argument)
    | negative inner =>
      -- what the inner match has read does not count, only that there is a character
      refine .mapValue Value.str ((Run.Ensures.any _).resume (fun _ _ _ => trivial) fun _ _ => ?_)
      split
      · rename_i c rest hrest
        have hsize := size_of_dropBytes? hrest
        rw [size_cons] at hsize
        show start + c.utf8Size ≤ max start (Text.size input)
        omega
      · trivial
    | look inner =>
      exact (Run.Ensures.any _).resume (fun _ _ _ => Nat.le_max_left ..) fun _ _ => trivial
    | attempt inner =>
      exact Combinator.attempt_ensures (ih scope hm.attempt input start) fun _ _ => trivial
    | backtrack inner =>
      -- whatever is taken from the start, the run ends before it
      rw [matcher, Combinator.backtrack]
      split
      · trivial
      · refine (Run.Ensures.any _).resume (fun value length _ => ?_) fun _ _ => trivial
        split
        · exact (Nat.sub_le ..).trans (Nat.le_max_left ..)
        · trivial
    | external name transformer inner =>
      cases transformer with
      | none => trivial
      | some transformer => exact hm.self _ (ih scope hm.external) input start
    | group items important =>
      exact .mapValue (groupValue important)
        (matchItems_inside fun item hitem captures => ih _ (hm.group item hitem) input)
    | repeated inner repetition =>
      have hinner := ih scope hm.repeated input
      -- each attempt starts where the one before has stopped, which is inside already
      have hmany : ∀ middle, middle ≤ max start (Text.size input) →
          (Combinator.many fuel (program.matcher fuel scope inner) input middle).Ensures
            (fun _ stop => stop ≤ max start (Text.size input)) fun _ => True := by
        refine fun middle hmiddle => Combinator.many_ensures
          (I := fun middle => middle ≤ max start (Text.size input))
          (P := fun _ _ stop => stop ≤ max start (Text.size input)) (fun _ h => h) ?_ hmiddle
        refine fun middle hmiddle => (hinner middle).mono (fun value stop hstop => ?_) fun _ h => h
        exact ⟨hstop.trans (Nat.max_le.2 ⟨hmiddle, Nat.le_max_right ..⟩), fun _ _ h => h⟩
      cases repetition with
      | optional =>
        exact .mapValue Value.ofOption (Combinator.optional_ensures
          (P := fun _ stop => stop ≤ max start (Text.size input)) (hinner start)
          (Nat.le_max_left ..))
      | any => exact .mapValue Value.list (hmany start (Nat.le_max_left ..))
      | oneOrMore =>
        refine .mapValue Value.list ((hinner start).andThen fun first middle hmiddle => ?_)
        exact .mapValue (first :: ·) (hmany middle hmiddle)

/-- A backward match that stays inside reads no more than there is. -/
theorem not_overruns_of_inside (hinside : program.Every Matcher.StaysInside) (fault : Fault) :
    ¬ program.Overruns fault := by
  rintro ⟨fuel, scope, text, events, value, hcontains, hrun, hlong⟩
  have hstop := (matcher_inside hinside fuel scope (hcontains.every hinside).backtrack text
    0).success hrun
  omega

/-- Only backward matchers overrun. -/
theorem not_overruns (hbacktrack : program.Every fun part => part.isBacktrack = false)
    (fault : Fault) : ¬ program.Overruns fault := by
  rintro ⟨fuel, scope, text, events, value, hcontains, hrun, hlong⟩
  cases (hcontains.every hbacktrack).self

/-! ### What brings a run down -/

/-- When functions of the host do not bring a run down.  Every text is cut in range and every rule
that is looked up is there, at any offset of any text.  A run that is not cut short succeeds or
fails, unless the body of a backward matcher overruns.  So it always does if there are no backward
matchers, or if the functions of the host stay inside of the texts they are given. -/
theorem host_faults_overrun (hprogram : program.Every (Matcher.IsHosted program)) {id : Nat}
    (hid : id < program.rules.length) (fuel : Nat) (param : Option String) (input : List Char)
    (start : Nat) :
    (∀ trap, program.guardedCall trap fuel id param input start =
      program.call fuel id param input start) ∧
    (∀ events fault, program.call fuel id param input start = some (events, .fault fault) →
      program.Overruns fault) ∧
    ((program.Every fun part => part.isBacktrack = false) ∨ program.Every Matcher.StaysInside →
      (program.call fuel id param input start).isSome →
        (program.call fuel id param input start).Ends) := by
  have hfaults := call_faults hprogram hid fuel param input start
  refine ⟨fun trap => ?_, hfaults, fun hharmless hsome => hfaults.ends hsome ?_⟩
  swap
  · exact hharmless.elim not_overruns not_overruns_of_inside
  have hguarded : program.guardedCall trap fuel id param = program.call fuel id param :=
    matchRuleGuarded_eq hid fun rule hrule alternative halternative item hitem captures =>
      guarded_eq hprogram trap fuel ⟨param, captures⟩ (hprogram.ofItem hrule halternative hitem)
  exact congrFun (congrFun hguarded input) start

end Program

/-! ### A match that is said to be longer -/

namespace Extended

/-- The match ends one byte further on. -/
def extend : Transformer := fun inner input start =>
  (inner input start).andThen fun value stop => .done (.success value (stop + 1))

/-- After a letter any one character is read backward, and said to be longer. -/
def program : Program :=
  ⟨[⟨.simple "a", false, [⟨[.any, .backtrack (.external "extend1" (some extend) .any)], none⟩],
    {}⟩]⟩

theorem extend_passesFaults : extend.PassesFaults := by
  intro inner input start events fault hrun
  rw [extend] at hrun
  rcases hinner : inner input start with - | ⟨events', ⟨value, stop⟩ | failure | fault'⟩
  · rw [hinner] at hrun
    cases hrun
  · rw [hinner] at hrun
    cases hrun
  · rw [hinner] at hrun
    cases hrun
  · rw [hinner] at hrun
    cases hrun
    exact ⟨input, start, events, hinner⟩

theorem isHosted : program.Every (Matcher.IsHosted program) := by
  intro rule hrule part hpart
  obtain rfl := List.mem_singleton.1 hrule
  simp only [CompiledRule.parts, partsOfAll, Matcher.parts, List.flatMap_cons, List.flatMap_nil,
    List.append_nil, List.cons_append, List.nil_append, List.mem_cons, List.not_mem_nil,
    or_false] at hpart
  rcases hpart with rfl | rfl | rfl | rfl
  · trivial
  · trivial
  · exact extend_passesFaults
  · trivial

/-- The run ends, but neither with a success nor with a failure. -/
theorem letter_crashes :
    program.Every (Matcher.IsHosted program) ∧ 0 < program.rules.length ∧
      (program.call 3 0 none "a".toList 0).outcome? = some (.fault (.beforeBeginning 1 2)) ∧
      ¬ (program.call 3 0 none "a".toList 0).Ends := by
  refine ⟨isHosted, by decide, rfl, fun hends => ?_⟩
  have hrun : program.call 3 0 none "a".toList 0 =
      some ([.entered 0 none "a".toList 0], .fault (.beforeBeginning 1 2)) := rfl
  rw [hrun] at hends
  cases hends

/-- What happens there is an overrun, and nothing else has gone wrong. -/
theorem letter_overruns :
    program.Every (Matcher.IsHosted program) ∧ 0 < program.rules.length ∧
      (∀ trap, program.guardedCall trap 3 0 none "a".toList 0 =
        program.call 3 0 none "a".toList 0) ∧
      program.Overruns (.beforeBeginning 1 2) := by
  have hid : 0 < program.rules.length := by decide
  obtain ⟨hguarded, hfaults, -⟩ := Program.host_faults_overrun isHosted hid 3 none "a".toList 0
  exact ⟨isHosted, hid, hguarded, hfaults _ _ rfl⟩

end Extended

end Peg
