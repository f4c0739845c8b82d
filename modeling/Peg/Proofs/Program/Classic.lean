/-
Peg/Proofs/Program/Classic.lean

Programs read as classic parsing expressions.

`Program.classic` is the interpreter without commitment: any failure leads to
the next alternative and ends a repetition, and `attempt` is its body.  All
else is as it is: lookahead, captures, groups, mappers, templates with the
blanks after them, and the end of a repetition that does not advance.

One induction compares the two readings (`matcher_agrees`).  It needs to know
of every failure after which something else could be tried that it is where
the attempt started, or that it may be excused.  There are two ways to know.

* With `attempt` around all of them no failure is anywhere else, and nothing
  has to be excused.  The two readings are the same (`Program.Atomic`).
* Without lookahead and `attempt` runs only go forward, and a failure that is
  not at the start is past it.  Excusing these, whatever is found is found in
  the classic reading too (`settled_of_isDirect`).
-/
import Peg.Proofs.Program.Fuel
import Peg.Proofs.Program.Furthest
import Peg.Proofs.Run.Classic
import Peg.Proofs.Run.Outcome

namespace Peg

namespace Program

variable {program : Program} {commits : Prop}

/-! ### The classic reading -/

/-- A rule whose alternatives are tried until one matches. -/
def classicRule (program : Program) (step : Step) (id : Nat) (param : Option String) :
    Matching Value := fun input start =>
  match program.rules[id]? with
  | none => .done (.fault (.missingRule id))
  | some rule =>
    (Classic.choice
      (rule.alternatives.map fun alternative => matchAlternative step alternative param)
      input start).mapOutcome (finishRule rule input)

/-- The meaning of a matcher as a classic parsing expression. -/
def classic (program : Program) : (fuel : Nat) → Step
  | 0, _, _, _, _ => none
  | fuel + 1, scope, m, input, start =>
    let step := classic program fuel
    let text := fun (outcome : Outcome String) => Run.primitive (outcome.map Value.str)
    match m with
    | .literal string => text (Primitive.literal string input start)
    | .regex expression description => text (Primitive.regex expression description input start)
    | .any => text (Primitive.anyChar input start)
    | .param => text (Primitive.literal (scope.param.getD "") input start)
    | .variable index => text (Primitive.literal (scope.textOf index) input start)
    | .rule id => program.classicRule step id none input start
    | .template id argument => program.classicRule step id (some argument) input start
    | .negative inner => (Combinator.negative (step scope inner) input start).mapValue .str
    | .look inner => Combinator.look (step scope inner) input start
    | .attempt inner => step scope inner input start
    | .backtrack inner => Combinator.backtrack (step scope inner) input start
    | .external _ (some transformer) inner => transformer (step scope inner) input start
    | .external name none _ => .done (.failure ⟨"<" ++ name ++ ">", start⟩)
    | .group items important =>
      (matchItems step items scope.param input start).mapValue (groupValue important)
    | .repeated inner .optional =>
      (Classic.optional (step scope inner) input start).mapValue Value.ofOption
    | .repeated inner .any =>
      (Classic.many fuel (step scope inner) input start).mapValue .list
    | .repeated inner .oneOrMore =>
      (Classic.many1 fuel (step scope inner) input start).mapValue .list

/-- The classic reading of a rule with a literal for its parameter and so much fuel. -/
abbrev classicCall (program : Program) (fuel id : Nat) (param : Option String) : Matching Value :=
  program.classicRule (program.classic fuel) id param

end Program

/-! ### Where something else is tried -/

namespace Matcher

def isAttempt : Matcher → Bool
  | .attempt _ => true
  | _ => false

/-- Repetitions of something that only fails where it starts, and all other matchers. -/
def repeatsAttempts : Matcher → Bool
  | .repeated inner _ => inner.isAttempt
  | _ => true

/-- A matcher that agrees with its classic reading when its parts do. -/
def Settled (commits : Prop) : Matcher → Prop
  | .negative _ | .look _ | .attempt _ => ¬ commits
  | .repeated inner _ => commits ∨ inner.isAttempt = true
  | .backtrack _ | .external _ _ _ => False
  | _ => True

theorem Settled.isForward {m : Matcher} (h : m.Settled commits) : m.isForward = true := by
  cases m with
  | backtrack inner => exact h.elim
  | external name transformer inner => exact h.elim
  | _ => rfl

end Matcher

/-- An alternative that only fails where it starts. -/
def CompiledAlternative.isAttempt (alternative : CompiledAlternative) : Bool :=
  match alternative.items with
  | [item] => item.isAttempt
  | _ => false

/-- Programs with an `attempt` around whatever something else is tried after. -/
structure Program.Atomic (program : Program) : Prop where
  alternatives : ∀ rule ∈ program.rules, ∀ alternative ∈ rule.alternatives.dropLast,
    alternative.isAttempt = true
  repetitions : program.Every fun part => part.repeatsAttempts = true

/-- Programs in which the failures after which something else is tried are where the attempt
started, or are excused. -/
structure Program.Settled (commits : Prop) (program : Program) : Prop where
  matchers : program.Every (Matcher.Settled commits)
  alternatives : ∀ rule ∈ program.rules, ∀ alternative ∈ rule.alternatives.dropLast,
    commits ∨ alternative.isAttempt = true

namespace Program

variable {program : Program} {commits : Prop} {param : Option String} {input : List Char}
variable {start : Nat} {step step' : Step}

/-! ### One step -/

/-- An alternative that is a single attempt only fails where it starts. -/
theorem matchAlternative_retries {alternative : CompiledAlternative}
    (hattempt : alternative.isAttempt = true)
    (h : ∀ item ∈ alternative.items, item.isAttempt = true → ∀ captures,
      (step ⟨param, captures⟩ item input start).Retries commits start) :
    (matchAlternative step alternative param input start).Retries commits start := by
  obtain ⟨items, mapper⟩ := alternative
  rcases items with - | ⟨item, - | ⟨second, others⟩⟩
  · cases hattempt
  · have hitem : (step ⟨param, []⟩ item input start).Retries commits start :=
      h item (List.mem_singleton_self _) hattempt []
    refine Run.Ensures.andThen (P := fun _ _ => True) ?_ fun _ _ _ => trivial
    refine Run.Ensures.andThen (P := fun _ _ => True) ?_ fun _ _ _ => trivial
    exact hitem.andThen fun _ _ _ => trivial
  · cases hattempt

theorem matchItems_agrees {items : List Matcher}
    (h : ∀ item ∈ items, ∀ captures start, Run.Agrees commits start
      (step ⟨param, captures⟩ item input start) (step' ⟨param, captures⟩ item input start))
    (hforward : ∀ item ∈ items, ∀ captures, (step ⟨param, captures⟩ item).Follows .forward)
    (start : Nat) :
    Run.Agrees commits start (matchItems step items param input start)
      (matchItems step' items param input start) := by
  have hitem : ∀ item ∈ items, ∀ captures start,
      (step ⟨param, captures⟩ item input start).Ensures (fun _ stop => start ≤ stop)
        fun _ => True := fun item hitem captures start =>
    (hforward item hitem captures input start).ensures_forward.mono (fun _ _ h => h)
      fun _ _ => trivial
  refine Combinator.sequence_agrees ?_ (fun matching hmatching captures start => ?_) [] start
  · rw [List.forall₂_map_left_iff, List.forall₂_map_right_iff, List.forall₂_same]
    exact fun item hmem captures start =>
      (h item hmem captures start).andThen (hitem item hmem captures start) fun _ _ => .refl _
  · obtain ⟨item, hmem, rfl⟩ := List.mem_map.1 hmatching
    exact (hitem item hmem captures start).andThen fun _ _ hstop => hstop

theorem matchRule_agrees {id : Nat}
    (h : ∀ rule, program.rules[id]? = some rule → ∀ alternative ∈ rule.alternatives,
      Run.Agrees commits start (matchAlternative step alternative param input start)
        (matchAlternative step' alternative param input start))
    (hretries : ∀ rule, program.rules[id]? = some rule →
      ∀ alternative ∈ rule.alternatives.dropLast,
        (matchAlternative step alternative param input start).Retries commits start) :
    Run.Agrees commits start (program.matchRule step id param input start)
      (program.classicRule step' id param input start) := by
  unfold matchRule classicRule
  rcases hrule : program.rules[id]? with - | rule
  · exact .refl _
  · have hchoice : Run.Agrees commits start
        (Combinator.choice (rule.alternatives.map fun alternative =>
          matchAlternative step alternative param) input start)
        (Classic.choice (rule.alternatives.map fun alternative =>
          matchAlternative step' alternative param) input start) := by
      refine Combinator.choice_agrees ?_ fun matching hmatching => ?_
      · rw [List.forall₂_map_left_iff, List.forall₂_map_right_iff, List.forall₂_same]
        exact h rule hrule
      · rw [← List.map_dropLast] at hmatching
        obtain ⟨alternative, hmem, rfl⟩ := List.mem_map.1 hmatching
        exact hretries rule hrule alternative hmem
    -- what finishes a rule moves the end of a success, and no failure
    dsimp only
    generalize Combinator.choice _ input start = run at hchoice
    generalize Classic.choice _ input start = classic at hchoice
    cases hchoice with
    | cutShort => exact .cutShort
    | success => exact .success ..
    | failure => exact .failure ..
    | fault => exact .fault ..
    | committed events failure classic hcommits hpast => exact .committed _ _ _ hcommits hpast

/-! ### The two readings -/

theorem Settled.forward (hprogram : program.Settled commits) :
    program.Every Course.forward.Permits :=
  hprogram.matchers.mono fun _ h => Course.forward_permits h.isForward

theorem Settled.matcher_forward (hprogram : program.Settled commits) (fuel : Nat) (scope : Scope)
    {m : Matcher} (hm : m.Every (Matcher.Settled commits)) :
    (program.matcher fuel scope m).Follows .forward :=
  matcher_follows hprogram.forward fuel scope
    (hm.mono fun _ h => Course.forward_permits h.isForward)

/-- Failures of an attempt are at its start, and excused failures past it. -/
theorem Settled.matcher_retries (hprogram : program.Settled commits) (fuel : Nat) (scope : Scope)
    {m : Matcher} (hm : m.Every (Matcher.Settled commits)) (h : commits ∨ m.isAttempt = true)
    (input : List Char) (start : Nat) :
    (program.matcher fuel scope m input start).Retries commits start := by
  rcases h with hcommits | hattempt
  · exact .of_forward hcommits (hprogram.matcher_forward fuel scope hm input start).ensures_forward
  · cases m with
    | attempt inner =>
      cases fuel with
      | zero => trivial
      | succ fuel => exact Combinator.attempt_retries commits _ input start
    | _ => cases hattempt

/-- The two readings of a rule agree when those of the matchers do. -/
theorem Settled.rule_agrees (hprogram : program.Settled commits) {fuel : Nat}
    (h : ∀ scope {m : Matcher}, m.Every (Matcher.Settled commits) → ∀ start,
      Run.Agrees commits start (program.matcher fuel scope m input start)
        (program.classic fuel scope m input start)) (id : Nat) (param : Option String)
    (start : Nat) :
    Run.Agrees commits start (program.call fuel id param input start)
      (program.classicCall fuel id param input start) := by
  refine matchRule_agrees (fun rule hrule alternative halternative => ?_)
    fun rule hrule alternative halternative => ?_
  · have hitems := fun item (hitem : item ∈ alternative.items) =>
      hprogram.matchers.ofItem hrule halternative hitem
    have hmatch := matchItems_agrees
      (fun item hitem captures start => h ⟨param, captures⟩ (hitems item hitem) start)
      (fun item hitem captures => hprogram.matcher_forward fuel _ (hitems item hitem)) start
    have hforward := matchItems_follows fun item hitem captures =>
      hprogram.matcher_forward fuel ⟨param, captures⟩ (hitems item hitem)
    exact hmatch.andThen (hforward input start).ensures_forward fun _ _ => .refl _
  · have hitems := fun item (hitem : item ∈ alternative.items) =>
      hprogram.matchers.ofItem hrule (List.dropLast_subset _ halternative) hitem
    rcases hprogram.alternatives rule (List.mem_of_getElem? hrule) alternative halternative with
      hcommits | hattempt
    · have hforward := matchAlternative_follows fun item hitem captures =>
        hprogram.matcher_forward fuel ⟨param, captures⟩ (hitems item hitem)
      exact .of_forward hcommits (hforward input start).ensures_forward
    · refine matchAlternative_retries hattempt fun item hitem hisAttempt captures => ?_
      exact hprogram.matcher_retries fuel _ (hitems item hitem) (.inr hisAttempt) input start

/-- Whatever is excused, the two readings agree otherwise. -/
theorem matcher_agrees (hprogram : program.Settled commits) (fuel : Nat) (scope : Scope)
    {m : Matcher} (hm : m.Every (Matcher.Settled commits)) (input : List Char) (start : Nat) :
    Run.Agrees commits start (program.matcher fuel scope m input start)
      (program.classic fuel scope m input start) := by
  induction fuel generalizing scope m start with
  | zero => exact .cutShort
  | succ fuel ih =>
    have hrule := fun id param => hprogram.rule_agrees ih id param start
    cases m with
    | literal string => exact .refl _
    | regex expression description => exact .refl _
    | any => exact .refl _
    | rule id => exact hrule id none
    | param => exact .refl _
    | «variable» index => exact .refl _
    | template id argument => exact hrule id (some argument)
    | negative inner =>
      -- lookahead goes on after a failure wherever it was, so none may be excused
      refine Run.Agrees.mapValue _ ((ih scope hm.negative start).resume hm.self
        (fun _ _ => .refl _) fun _ _ => .refl _)
    | look inner =>
      exact (ih scope hm.look start).resume hm.self (fun _ _ => .refl _) fun _ _ => .failure ..
    | attempt inner => exact Combinator.attempt_agrees hm.self (ih scope hm.attempt start)
    | backtrack inner => exact hm.self.elim
    | external name transformer inner => exact hm.self.elim
    | group items important =>
      exact (matchItems_agrees (fun item hitem captures start => ih _ (hm.group item hitem) start)
        (fun item hitem captures => hprogram.matcher_forward fuel _ (hm.group item hitem))
        start).mapValue _
    | repeated inner repetition =>
      have hinner := fun start => ih scope hm.repeated start
      have hretries := fun start =>
        hprogram.matcher_retries fuel scope hm.repeated hm.self input start
      have hforward : ∀ start, (program.matcher fuel scope inner input start).Ensures
          (fun _ stop => start ≤ stop) fun _ => True := fun start =>
        (hprogram.matcher_forward fuel scope hm.repeated input start).ensures_forward.mono
          (fun _ _ h => h) fun _ _ => trivial
      cases repetition with
      | optional => exact (Combinator.optional_agrees (hinner start) (hretries start)).mapValue _
      | any => exact (Combinator.many_agrees hinner hforward hretries fuel start).mapValue _
      | oneOrMore => exact (Combinator.many1_agrees hinner hforward hretries fuel start).mapValue _

/-! ### Any amounts of fuel -/

theorem Settled.call_agrees (hprogram : program.Settled commits) (fuel id : Nat)
    (param : Option String) (input : List Char) (start : Nat) :
    Run.Agrees commits start (program.call fuel id param input start)
      (program.classicCall fuel id param input start) :=
  hprogram.rule_agrees (fun scope _ hm start => matcher_agrees hprogram fuel scope hm input start)
    id param start

/-- A rule has one answer, whatever the fuel. -/
theorem call_unique (hprogram : program.Every fun part => part.isRegistered = false)
    {fuel fuel' id : Nat} {answer answer' : List Event × Outcome Value}
    (h : program.call fuel id param input start = some answer)
    (h' : program.call fuel' id param input start = some answer') : answer = answer' := by
  have hbelow : ∀ {fuel fuel'}, fuel ≤ fuel' →
      Matching.Below (program.call fuel id param) (program.call fuel' id param) := fun hfuel =>
    matchRule_below (fun _ hrule _ halternative _ hitem scope =>
      matcher_below hprogram hfuel scope (hprogram.ofItem hrule halternative hitem)) param
  -- the run with more fuel repeats the one with less
  rcases Nat.le_total fuel fuel' with hle | hle
  · have hsame := (hbelow hle input start).eq_some h
    rw [h'] at hsame
    exact (Option.some.inj hsame).symm
  · have hsame := (hbelow hle input start).eq_some h'
    rw [h] at hsame
    exact Option.some.inj hsame

/-- Two readings that both end agree, however much fuel each of them has had. -/
theorem Settled.agrees_of_ended (hprogram : program.Settled commits) {fuel fuel' id : Nat}
    {answer answer' : List Event × Outcome Value}
    (h : program.call fuel id param input start = some answer)
    (h' : program.classicCall fuel' id param input start = some answer') :
    Run.Agrees commits start (some answer) (some answer') := by
  have hregistered : program.Every fun part => part.isRegistered = false := by
    refine hprogram.matchers.mono fun m hm => ?_
    cases m with
    | external name transformer inner => exact hm.elim
    | _ => rfl
  -- with the fuel of the classic reading the program ends too, and in its one answer
  have hagrees := hprogram.call_agrees fuel' id param input start
  rw [h'] at hagrees
  rcases hcall : program.call fuel' id param input start with - | other
  · rw [hcall] at hagrees
    cases hagrees
  · rw [hcall] at hagrees
    rwa [call_unique hregistered h hcall]

/-! ### Attempts everywhere -/

theorem Atomic.settled (hatomic : program.Atomic)
    (hbacktrack : program.Every fun part => part.isBacktrack = false)
    (hexternal : program.Every fun part => part.isExternal = false) :
    program.Settled False where
  matchers := by
    refine ((hbacktrack.and hexternal).and hatomic.repetitions).mono fun m hm => ?_
    obtain ⟨⟨hbacktrack, hexternal⟩, hrepeats⟩ := hm
    cases m with
    | negative | look | attempt => exact not_false
    | backtrack inner => cases hbacktrack
    | external name transformer inner => cases hexternal
    | repeated inner repetition => exact .inr hrepeats
    | _ => trivial
  alternatives := fun rule hrule alternative halternative =>
    .inr (hatomic.alternatives rule hrule alternative halternative)

/-- With an attempt around whatever something else is tried after, a program means what it means
as a classic one: both readings end or neither does, with the same status, and in the same value
at the same offset if they succeed. -/
theorem atomic_agrees_classic (hatomic : program.Atomic)
    (hbacktrack : program.Every fun part => part.isBacktrack = false)
    (hexternal : program.Every fun part => part.isExternal = false)
    (id : Nat) (param : Option String) (input : List Char) (start : Nat) :
    (∀ fuel, (program.call fuel id param input start).isSome =
      (program.classicCall fuel id param input start).isSome) ∧
    ∀ fuel fuel' outcome outcome',
      (program.call fuel id param input start).outcome? = some outcome →
      (program.classicCall fuel' id param input start).outcome? = some outcome' →
        outcome.Agrees outcome' := by
  have hsettled := hatomic.settled hbacktrack hexternal
  constructor
  · intro fuel
    have hagrees := hsettled.call_agrees fuel id param input start
    generalize program.call fuel id param input start = run at hagrees ⊢
    generalize program.classicCall fuel id param input start = classic at hagrees ⊢
    cases hagrees with
    | cutShort => rfl
    | success => rfl
    | failure => rfl
    | fault => rfl
    | committed _ _ _ hcommits =>
      -- nothing is excused here
      exact hcommits.elim
  · intro fuel fuel' outcome outcome' houtcome houtcome'
    obtain ⟨events, hrun⟩ := Run.outcome?_eq_some houtcome
    obtain ⟨events', hrun'⟩ := Run.outcome?_eq_some houtcome'
    exact (hsettled.agrees_of_ended hrun hrun').outcome not_false rfl rfl

end Program

namespace Undone

/-- Two alternatives that begin alike, the first one in an attempt, and a repeated attempt. -/
def program : Program :=
  ⟨[⟨.simple "word", false,
      [⟨[.attempt (.group [.literal "a", .literal "b"] [])], none⟩,
        ⟨[.literal "a", .repeated (.attempt (.literal "c")) .any], none⟩], {}⟩]⟩

/-- Both readings give up what the attempt has read, each with fuel of its own. -/
theorem undone_agrees : program.Atomic ∧
    (program.call 5 0 none "acc".toList 0).outcome? =
      some (.success (.tuple [.str "a", .list [.str "c", .str "c"]]) 3) ∧
    (program.classicCall 6 0 none "acc".toList 0).outcome? =
      some (.success (.tuple [.str "a", .list [.str "c", .str "c"]]) 3) ∧
    (Outcome.success (Value.tuple [.str "a", .list [.str "c", .str "c"]]) 3).Agrees
      (.success (.tuple [.str "a", .list [.str "c", .str "c"]]) 3) := by
  have hatomic : program.Atomic := ⟨by decide, by decide⟩
  have hrun : (program.call 5 0 none "acc".toList 0).outcome? =
      some (.success (.tuple [.str "a", .list [.str "c", .str "c"]]) 3) := rfl
  have hclassic : (program.classicCall 6 0 none "acc".toList 0).outcome? =
      some (.success (.tuple [.str "a", .list [.str "c", .str "c"]]) 3) := rfl
  obtain ⟨-, hagrees⟩ := Program.atomic_agrees_classic hatomic (by decide) (by decide) 0 none
    "acc".toList 0
  exact ⟨hatomic, hrun, hclassic, hagrees 5 6 _ _ hrun hclassic⟩

end Undone

namespace Program

variable {program : Program} {param : Option String} {input : List Char} {start : Nat}

/-! ### No attempts at all -/

theorem settled_of_isDirect (hprogram : program.Every fun part => part.isDirect = true) :
    program.Settled True where
  matchers := by
    refine hprogram.mono fun m hm => ?_
    cases m with
    | negative | look | attempt | backtrack | external => cases hm
    | repeated inner repetition => exact .inl trivial
    | _ => trivial
  alternatives := fun _ _ _ _ => .inl trivial

/-- Commitment never invents a match.  What is found is found by the classic reading, and what
fails where it started fails there too.  Only a failure past the start may have hidden a match. -/
theorem commitment_invents_nothing (hprogram : program.Every fun part => part.isDirect = true)
    (fuel id : Nat) (param : Option String) (input : List Char) (start : Nat) :
    (∀ value stop,
      (program.call fuel id param input start).outcome? = some (.success value stop) →
        (program.classicCall fuel id param input start).outcome? = some (.success value stop)) ∧
    (∀ failure,
      (program.call fuel id param input start).outcome? = some (.failure failure) →
      failure.position = start →
        ∃ failure',
          (program.classicCall fuel id param input start).outcome? = some (.failure failure')) ∧
    ∀ failure fuel' value stop,
      (program.call fuel id param input start).outcome? = some (.failure failure) →
      (program.classicCall fuel' id param input start).outcome? = some (.success value stop) →
        start < failure.position := by
  have hsettled := settled_of_isDirect hprogram
  -- the relation lists how both runs may end together, so each part reads off its cases
  have hagrees := hsettled.call_agrees fuel id param input start
  refine ⟨fun value stop houtcome => ?_, fun failure houtcome hposition => ?_,
    fun failure fuel' value stop houtcome houtcome' => ?_⟩
  · obtain ⟨events, hrun⟩ := Run.outcome?_eq_some houtcome
    rw [hrun] at hagrees
    generalize program.classicCall fuel id param input start = classic at hagrees ⊢
    cases hagrees with
    | success => rfl
  · obtain ⟨events, hrun⟩ := Run.outcome?_eq_some houtcome
    rw [hrun] at hagrees
    generalize program.classicCall fuel id param input start = classic at hagrees ⊢
    cases hagrees with
    | failure events events' failure failure' => exact ⟨failure', rfl⟩
    | committed events failure classic hcommits hpast =>
      exact absurd hposition (Nat.ne_of_gt hpast)
  · obtain ⟨events, hrun⟩ := Run.outcome?_eq_some houtcome
    obtain ⟨events', hrun'⟩ := Run.outcome?_eq_some houtcome'
    -- the fuel of the two runs may differ, but both have ended
    cases hsettled.agrees_of_ended hrun hrun' with
    | committed events failure classic hcommits hpast => exact hpast

end Program

namespace Committed

/-- Two alternatives that begin alike. -/
def program : Program :=
  ⟨[⟨.simple "word", false,
      [⟨[.literal "a", .literal "b"], none⟩, ⟨[.literal "a", .literal "c"], none⟩], {}⟩]⟩

/-- A match and a failure at the start are found by the classic reading too.  The second
alternative is found only by it, where the commitment to the first one failed past the start. -/
theorem committed_hides_match :
    ((program.call 2 0 none "ab".toList 0).outcome? =
        some (.success (.tuple [.str "a", .str "b"]) 2) ∧
      (program.classicCall 2 0 none "ab".toList 0).outcome? =
        some (.success (.tuple [.str "a", .str "b"]) 2)) ∧
    ((program.call 2 0 none "b".toList 0).outcome? = some (.failure ⟨"a", 0⟩) ∧
      ∃ failure,
        (program.classicCall 2 0 none "b".toList 0).outcome? = some (.failure failure)) ∧
    (program.call 2 0 none "ac".toList 0).outcome? = some (.failure ⟨"b", 1⟩) ∧
    (program.classicCall 2 0 none "ac".toList 0).outcome? =
      some (.success (.tuple [.str "a", .str "c"]) 2) ∧
    0 < (Failure.mk "b" 1).position := by
  have hdirect : program.Every fun part => part.isDirect = true := by decide
  have hfirst : (program.call 2 0 none "ab".toList 0).outcome? =
      some (.success (.tuple [.str "a", .str "b"]) 2) := rfl
  have hnone : (program.call 2 0 none "b".toList 0).outcome? = some (.failure ⟨"a", 0⟩) := rfl
  have hsecond : (program.call 2 0 none "ac".toList 0).outcome? = some (.failure ⟨"b", 1⟩) := rfl
  have hclassic : (program.classicCall 2 0 none "ac".toList 0).outcome? =
      some (.success (.tuple [.str "a", .str "c"]) 2) := rfl
  obtain ⟨hsuccess, -, -⟩ := Program.commitment_invents_nothing hdirect 2 0 none "ab".toList 0
  obtain ⟨-, hfailure, -⟩ := Program.commitment_invents_nothing hdirect 2 0 none "b".toList 0
  obtain ⟨-, -, hpast⟩ := Program.commitment_invents_nothing hdirect 2 0 none "ac".toList 0
  exact ⟨⟨hfirst, hsuccess _ _ hfirst⟩, ⟨hnone, hfailure _ hnone rfl⟩, hsecond, hclassic,
    hpast _ 2 _ _ hsecond hclassic⟩

end Committed

end Peg
