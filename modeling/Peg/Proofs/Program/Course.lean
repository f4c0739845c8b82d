/-
Peg/Proofs/Program/Course.lean

The courses of programs.

A course permits matchers: lookahead and `attempt` if it can be taken back,
backward matchers if it can be reversed, and no functions of the host, which
may stop anywhere.  A matcher follows a course that permits all its parts, if
the rules it calls follow it (`matcher_follows_of_calls`).  So every rule and
every matcher of a program follows a course that permits all of its matchers
(`call_follows`, `matcher_follows`).  Each fact about offsets and events that
holds all over a program is such a course.

The first one is `Course.forward`: without backward matchers a run never stops
before it started, neither in a success nor in a failure.
-/
import Peg.Proofs.Program.Progress
import Peg.Proofs.Run.Course

namespace Peg

open Text

/-! ### Primitive matchers -/

namespace Primitive

variable {input : List Char} {start : Nat}

theorem literal_isReading (string : String) :
    IsReading input start (literal string input start) := by
  unfold literal
  split
  · rename_i rest hrest
    obtain ⟨here, hhere, hafter⟩ := Option.bind_eq_some_iff.1 hrest
    rw [after?_eq_some_iff.1 hafter] at hhere
    exact ⟨string.toList, rest, hhere, String.ofList_toList.symm, rfl⟩
  · rfl

theorem anyChar_isReading : IsReading input start (anyChar input start) := by
  unfold anyChar
  split
  · rename_i c rest hrest
    exact ⟨[c], rest, hrest, by simp [Char.toString], rfl⟩
  · rfl

theorem regex_isReading (expression : Regex) (description : String) :
    IsReading input start (regex expression description input start) := by
  unfold regex
  split
  · rfl
  · rename_i here hhere
    split
    · rfl
    · rename_i length hlength
      obtain ⟨passed, rest, rfl, rfl⟩ := Regex.matchLength?_eq_some hlength
      refine ⟨passed, rest, hhere, ?_, rfl⟩
      rw [takeBytes?_append, Option.getD_some]

end Primitive

/-- The value of a primitive matcher is made after it has run. -/
theorem Run.primitive_map {α β : Type} (f : α → β) (outcome : Outcome α) :
    Run.primitive (outcome.map f) = (Run.primitive outcome).mapValue f := by
  cases outcome <;> rfl

/-- Blanks that are skipped are read. -/
theorem Course.along_skipBlank (course : Course) {input : List Char} {start stop : Nat}
    {events : List Event} (h : course.Along input start events stop) :
    course.Along input start events (Primitive.skipBlank input stop) := by
  unfold Primitive.skipBlank
  split
  · rename_i here hhere
    rw [← here.takeWhile_append_dropWhile (p := isBlank)] at hhere
    exact course.along_read h _ hhere
  · exact h

/-! ### Matchers -/

/-- Matchers that follow a course when their parts do. -/
def Course.Permits (course : Course) : Matcher → Prop
  | .negative _ | .look _ | .attempt _ => course.Resets
  | .backtrack _ => course.Reverses
  | .external _ transformer _ => transformer = none
  | _ => True

namespace Program

/-- A rule with a literal for its parameter and so much fuel. -/
abbrev call (program : Program) (fuel id : Nat) (param : Option String) : Matching Value :=
  program.matchRule (program.matcher fuel) id param

variable {program : Program} {course : Course} {step : Step} {param : Option String}

/-- The items that are left of a sequence, after those that have been captured. -/
def itemsFrom (step : Step) (items : List Matcher) (param : Option String)
    (captures : List Capture) : Matching (List Capture) :=
  Combinator.sequence
    (items.map fun item captures input start =>
      Run.andThen (step ⟨param, captures⟩ item input start) fun value stop =>
        .done (.success ⟨value, ⟨start, stop⟩⟩ stop))
    captures

theorem itemsFrom_follows {items : List Matcher} {captures : List Capture}
    (h : ∀ item ∈ items, ∀ captures, (step ⟨param, captures⟩ item).Follows course) :
    (itemsFrom step items param captures).Follows course := by
  refine Combinator.sequence_follows (fun matching hmatching captures input start => ?_) captures
  obtain ⟨item, hitem, rfl⟩ := List.mem_map.1 hmatching
  exact (h item hitem captures input start).andThen fun _ _ => .stay _

theorem matchItems_follows {items : List Matcher}
    (h : ∀ item ∈ items, ∀ captures, (step ⟨param, captures⟩ item).Follows course) :
    (matchItems step items param).Follows course := by
  show (itemsFrom step items param []).Follows course
  exact itemsFrom_follows h

theorem matchAlternative_follows {alternative : CompiledAlternative}
    (h : ∀ item ∈ alternative.items, ∀ captures, (step ⟨param, captures⟩ item).Follows course) :
    (matchAlternative step alternative param).Follows course := by
  intro input start
  exact (matchItems_follows h input start).andThen fun _ _ => .stay _

/-- A rule goes where its alternatives go, and is entered and left on the way. -/
theorem matchRule_follows_of_choice {id : Nat} {rule : CompiledRule}
    (hrule : program.rules[id]? = some rule) {input : List Char} {start : Nat}
    (hchoice : (Combinator.choice (rule.alternatives.map fun alternative =>
      matchAlternative step alternative param) input start).Follows course input start) :
    (program.matchRule step id param input start).Follows course input start := by
  unfold matchRule
  rw [hrule]
  -- a rule is entered where it starts, and left where it stops
  have hentered := course.event input (.entered id param input start)
  dsimp only
  generalize Combinator.choice _ input start = run at hchoice
  rcases run with - | ⟨events, ⟨value, stop⟩ | failure | fault⟩
  · trivial
  · have hstop : course.Along input start events
        (if rule.skipsBlank then Primitive.skipBlank input stop else stop) := by
      split
      · exact course.along_skipBlank hchoice
      · exact hchoice
    exact course.along_event (course.trans hentered hstop) (.matched id _) rfl
  · exact course.along_event (course.trans hentered hchoice) (.failed id failure) rfl
  · exact hchoice

theorem matchRule_follows {id : Nat}
    (h : ∀ rule, program.rules[id]? = some rule → ∀ alternative ∈ rule.alternatives,
      ∀ item ∈ alternative.items, ∀ captures, (step ⟨param, captures⟩ item).Follows course) :
    (program.matchRule step id param).Follows course := by
  intro input start
  rcases hrule : program.rules[id]? with - | rule
  · unfold matchRule
    rw [hrule]
    exact ⟨id, rfl⟩
  · refine matchRule_follows_of_choice hrule (Combinator.choice_follows ?_ input start)
    intro matching hmatching
    obtain ⟨alternative, halternative, rfl⟩ := List.mem_map.1 hmatching
    exact matchAlternative_follows (h rule hrule alternative halternative)

/-- A matcher follows a course that permits it and that the rules it may call follow. -/
theorem matcher_follows_of_calls (fuel : Nat)
    (hcalls : ∀ less < fuel, ∀ id param, (program.call less id param).Follows course)
    (scope : Scope) {m : Matcher} (hm : m.Every course.Permits) :
    (program.matcher fuel scope m).Follows course := by
  induction fuel generalizing scope m with
  | zero => exact fun _ _ => trivial
  | succ fuel hbodies =>
    have ih := hbodies fun less hless => hcalls less (Nat.lt_succ_of_lt hless)
    intro input start
    -- the matchers that read text record it in the same way
    have htext : ∀ {outcome : Outcome String}, Primitive.IsReading input start outcome →
        (Run.primitive (outcome.map Value.str)).Follows course input start := by
      intro outcome houtcome
      rw [Run.primitive_map]
      exact (Run.Follows.primitive houtcome).mapValue _
    have hrule := hcalls fuel (Nat.lt_succ_self fuel)
    cases m with
    | literal string => exact htext (Primitive.literal_isReading string)
    | regex expression description => exact htext (Primitive.regex_isReading expression description)
    | any => exact htext Primitive.anyChar_isReading
    | rule id => exact hrule id none input start
    | param => exact htext (Primitive.literal_isReading _)
    | «variable» index => exact htext (Primitive.literal_isReading _)
    | template id argument => exact hrule id (some argument) input start
    | negative inner =>
      exact (Combinator.negative_follows hm.self (ih scope hm.negative) input start).mapValue _
    | look inner => exact Combinator.look_follows hm.self (ih scope hm.look) input start
    | attempt inner => exact Combinator.attempt_follows hm.self (ih scope hm.attempt) input start
    | backtrack inner =>
      exact Combinator.backtrack_follows hm.self (ih scope hm.backtrack) input start
    | external name transformer inner =>
      obtain rfl : transformer = none := hm.self
      exact .refuse _
    | group items important =>
      exact (matchItems_follows (fun item hitem captures => ih _ (hm.group item hitem)) input
        start).mapValue _
    | repeated inner repetition =>
      have hinner := ih scope hm.repeated
      cases repetition with
      | optional => exact (Combinator.optional_follows hinner input start).mapValue _
      | any => exact (Combinator.many_follows hinner fuel input start).mapValue _
      | oneOrMore => exact (Combinator.many1_follows hinner fuel input start).mapValue _

/-- Every rule follows the courses that permit the matchers of its program. -/
theorem call_follows (hprogram : program.Every course.Permits) (fuel id : Nat)
    (param : Option String) : (program.call fuel id param).Follows course := by
  induction fuel using Nat.strong_induction_on generalizing id param with
  | _ fuel ih =>
    exact matchRule_follows fun _ hrule _ halternative _ hitem _ =>
      matcher_follows_of_calls fuel ih _ (hprogram.ofItem hrule halternative hitem)

/-- Every matcher follows the courses that permit it and the matchers of its program. -/
theorem matcher_follows (hprogram : program.Every course.Permits) (fuel : Nat) (scope : Scope)
    {m : Matcher} (hm : m.Every course.Permits) :
    (program.matcher fuel scope m).Follows course :=
  matcher_follows_of_calls fuel (fun less _ => call_follows hprogram less) scope hm

end Program

/-! ### Forward -/

/-- Stopping where the run started or after it. -/
def Course.forward : Course where
  Along _ start _ stop := start ≤ stop
  stay _ _ := Nat.le_refl _
  trans := Nat.le_trans
  read _ _ _ := Nat.le_add_right ..
  event _ _ := Nat.le_refl _

/-- Going forward can be taken back. -/
theorem Course.forward_resets : Course.forward.Resets :=
  fun _ => Nat.le_refl _

/-- Matchers without backward matching and functions of the host. -/
def Matcher.isForward (m : Matcher) : Bool :=
  !m.isBacktrack && !m.isExternal

theorem Course.forward_permits {m : Matcher} (h : m.isForward = true) :
    Course.forward.Permits m := by
  cases m with
  | negative inner | look inner | attempt inner => exact Course.forward_resets
  | backtrack inner => cases h
  | external name transformer inner => cases h
  | _ => trivial

theorem Run.Follows.ensures_forward {α : Type} {input : List Char} {start : Nat} {run : Run α}
    (h : run.Follows .forward input start) :
    run.Ensures (fun _ stop => start ≤ stop) fun failure => start ≤ failure.position :=
  h.ensures fun _ _ hstop => hstop

end Peg
