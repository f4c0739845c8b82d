/-
Peg/Proofs/Grammar/Furthest.lean

Mistakes in grammars are reported at the furthest position.

Where all failures are reported where they happen, the one that is reported is
the furthest (`Course.furthest`).  The grammar of grammars has three rules that
look ahead and forget how far they have come, and they need a reason of their
own:

* in the text of a pasta block every refusal is of the two characters that end
  it, and is where the attempt starts;
* a rule that starts like a template is read again as far as the backquote,
  and without a backquote the other alternative reads the name again;
* so is a template, and an application as far as its parenthesis; without one
  the last alternative reads the name again.

That something is read again is said by the offsets where names and literals
end, which do not depend on what has been matched around them (`nameEnd?`,
`literalEnd?`).  A lookahead whose ends are reached by what comes next follows
the course (`Run.Follows.lookahead`); from there on the argument is the general
one, by induction on the fuel.
-/
import Peg.Proofs.Grammar.Typed
import Peg.Proofs.Program.Furthest

namespace Peg

open Text

variable {α β : Type} {input : List Char} {start : Nat}

/-! ### Runs that reach an offset -/

/-- A run does not stop before an offset. -/
def Run.Reaches (run : Run α) (reach : Nat) : Prop :=
  run.Ensures (fun _ stop => reach ≤ stop) fun failure => reach ≤ failure.position

namespace Run.Reaches

variable {reach : Nat} {run : Run α}

/-- What reaches an offset reaches those before it. -/
theorem le (h : run.Reaches reach) {earlier : Nat} (hle : earlier ≤ reach) :
    run.Reaches earlier :=
  h.mono (fun _ _ hstop => hle.trans hstop) fun _ hfailure => hle.trans hfailure

/-- A run that follows its course has come at least to where it started. -/
theorem of_forward (h : run.Follows .forward input start) (hreach : reach ≤ start) :
    run.Reaches reach :=
  h.ensures fun _ _ hstop => hreach.trans hstop

/-- The second attempt has to reach the offset too. -/
theorem retry {refused : Run α} (h : run.Reaches reach) (hrefused : refused.Reaches reach) :
    (run.retry start (fun value stop => .done (.success value stop)) refused).Reaches reach := by
  refine Run.Ensures.resume h (fun value stop hstop => hstop) fun failure hfailure => ?_
  split
  · exact hrefused
  · exact hfailure

end Run.Reaches

/-- Events that a run comes past can be put before it. -/
theorem Run.Follows.after_reached {run : Run α} {events : List Event}
    (h : run.Follows .furthest input start)
    (hreached : ∀ event ∈ events, run.Reaches event.offset) :
    (run.after events).Follows .furthest input start := by
  rcases run with - | ⟨later, ⟨value, stop⟩ | failure | fault⟩
  · trivial
  · refine ⟨h.1, fun event hevent => ?_⟩
    rcases List.mem_append.1 hevent with hevent | hevent
    · exact hreached event hevent
    · exact h.2 event hevent
  · refine ⟨h.1, fun event hevent => ?_⟩
    rcases List.mem_append.1 hevent with hevent | hevent
    · exact hreached event hevent
    · exact h.2 event hevent
  · exact h

/-! ### Lookahead -/

section Lookahead

variable {head : Run α} {rest : α → Run β} {others : Run β} {expected : String}

/-- What goes on after a lookahead, and what is tried if nothing does: where both come as far as
the lookahead has come, nothing is forgotten. -/
theorem Run.Follows.lookahead (hhead : head.Follows .furthest input start)
    (hrest : ∀ value, (rest value).Follows .furthest input start)
    (hothers : others.Follows .furthest input start)
    (hreached : head.Ensures (fun value stop => (rest value).Reaches stop)
      fun failure => others.Reaches failure.position) :
    ((head.resume (fun value _ => rest value) fun _ => .done (.failure ⟨expected, start⟩)).retry
      start (fun value stop => .done (.success value stop)) others).Follows .furthest input start := by
  rcases head with - | ⟨events, ⟨value, stop⟩ | failure | fault⟩
  · trivial
  · have hfirst : ((rest value).after events).Follows .furthest input start :=
      (hrest value).after_reached fun event hevent =>
        Run.Reaches.le hreached (hhead.2 event hevent)
    exact hfirst.retry (fun _ _ => .stay _) hothers
  · have hsecond : (others.after events).Follows .furthest input start :=
      hothers.after_reached fun event hevent =>
        Run.Reaches.le hreached (hhead.2 event hevent)
    simpa [Run.resume, Run.retry] using hsecond
  · exact hhead

/-- If the first attempt fails before the offset, the other one makes up for it. -/
theorem Run.Reaches.lookahead {reach : Nat}
    (hrest : head.Ensures (fun value _ => (rest value).Reaches reach) fun _ => True)
    (hothers : others.Reaches reach) :
    ((head.resume (fun value _ => rest value) fun _ => .done (.failure ⟨expected, start⟩)).retry
      start (fun value stop => .done (.success value stop)) others).Reaches reach := by
  rcases head with - | ⟨events, ⟨value, stop⟩ | failure | fault⟩
  · trivial
  · exact Run.Reaches.retry (Run.Ensures.after events hrest) hothers
  · have hsecond : (others.after events).Reaches reach := Run.Ensures.after events hothers
    simpa [Run.resume, Run.retry] using hsecond
  · trivial

end Lookahead

/-- Alternatives before others follow a course if each of them does. -/
theorem Combinator.choice_append_follows {course : Course} {skipped others : List (Matching α)}
    (hskipped : ∀ alternative ∈ skipped, alternative.Follows course) (hne : others ≠ [])
    (hothers : (choice others input start).Follows course input start) :
    (choice (skipped ++ others) input start).Follows course input start := by
  induction skipped with
  | nil => exact hothers
  | cons first skipped ih =>
    obtain ⟨hfirst, hskipped⟩ := List.forall_mem_cons.1 hskipped
    obtain ⟨next, more, hnext⟩ :=
      List.exists_cons_of_ne_nil (List.append_ne_nil_of_right_ne_nil skipped hne)
    specialize ih hskipped
    rw [List.cons_append, hnext, choice_eq_retry]
    rw [hnext] at ih
    exact (hfirst input start).retry (fun _ _ => .stay _) ih

/-! ### Items one by one -/

namespace Program

variable {step : Step} {param : Option String} {items : List Matcher} {captures : List Capture}

/-- The first item of a sequence, and then the others from where it ends. -/
theorem itemsFrom_cons_ensures {item : Matcher} {P : Nat → Prop} {Q : Failure → Prop}
    (h : (step ⟨param, captures⟩ item input start).Ensures
      (fun value stop => (itemsFrom step items param (captures ++ [⟨value, ⟨start, stop⟩⟩]) input
        stop).Ensures (fun _ => P) Q) Q) :
    (itemsFrom step (item :: items) param captures input start).Ensures (fun _ => P) Q := by
  rw [itemsFrom, List.map_cons, Combinator.sequence]
  refine Run.Ensures.andThen (P := fun capture stop => (itemsFrom step items param
    (captures ++ [capture]) input stop).Ensures (fun _ => P) Q) ?_ fun _ _ h => h
  exact h.andThen fun _ _ h => h

/-- An alternative that looks ahead first. -/
theorem matchAlternative_look {program : Program} {fuel : Nat} {m : Matcher}
    {mapper : Option MapperExpr} : ∃ valueOf : List Capture → Nat → Value,
      matchAlternative (program.matcher (fuel + 1)) ⟨.look m :: items, mapper⟩ param input start =
        (program.matcher fuel ⟨param, []⟩ m input start).resume
          (fun value _ => Run.andThen
            (itemsFrom (program.matcher (fuel + 1)) items param [⟨value, ⟨start, start⟩⟩] input start)
            fun captures stop => .done (.success (valueOf captures stop) stop))
          fun _ => .done (.failure ⟨"<look>", start⟩) := by
  refine ⟨fun captures stop => mapper.elim (.ofItems (captures.map (·.value)))
    (·.evaluate captures input ⟨start, stop⟩), ?_⟩
  rw [matchAlternative, matchItems, List.map_cons, Combinator.sequence, matcher, Combinator.look]
  rcases program.matcher fuel ⟨param, []⟩ m input start with
    - | ⟨events, ⟨value, stop⟩ | failure | fault⟩
  · rfl
  · simp only [Run.resume, Run.after_andThen, Run.done_andThen]
    cases mapper <;> rfl
  · rfl
  · rfl

end Program

/-! ### Where names and literals end -/

/-- Where a primitive matcher ends, unless it refuses the text. -/
def Outcome.stop? : Outcome α → Option Nat
  | .success _ stop => some stop
  | .failure _ | .fault _ => none

/-- A run ends at an offset if one is given, and fails at another one if none is. -/
def Run.EndsAt (run : Run α) (stop? : Option Nat) (refused : Nat) : Prop :=
  run.Ensures (fun _ stop => stop? = some stop) fun failure =>
    stop? = none ∧ failure.position = refused

/-- Where a primitive matcher ends is known from the text. -/
theorem Run.EndsAt.primitive {outcome : Outcome String}
    (h : Primitive.IsReading input start outcome) (f : String → Value) :
    (Run.primitive (outcome.map f)).EndsAt outcome.stop? start := by
  rcases outcome with ⟨text, stop⟩ | failure | fault
  · rfl
  · exact ⟨rfl, h⟩
  · trivial

/-- What may be left out ends where it starts if it is. -/
theorem Combinator.optional_endsAt {body : Matching α} {stop? : Option Nat}
    (h : (body input start).EndsAt stop? start) :
    (optional body input start).Ensures (fun _ stop => stop = stop?.getD start)
      fun _ => False := by
  rw [optional_eq_retry]
  refine Run.Ensures.resume h (fun value stop hstop => ?_) fun failure hfailure => ?_
  · show stop = stop?.getD start
    rw [hstop, Option.getD_some]
  · rw [if_pos hfailure.2]
    show start = stop?.getD start
    rw [hfailure.1, Option.getD_none]

namespace Meta

open Program (itemsFrom)

variable {fuel : Nat} {scope : Scope} {name : Name} {param : Option String}
variable {others : List Matcher} {captures : List Capture} {stop : Nat}

/-- Where a literal ends. -/
def literalEnd? (string : String) (input : List Char) (start : Nat) : Option Nat :=
  (Primitive.literal string input start).stop?

/-- Where a name ends. -/
def nameEnd? (input : List Char) (start : Nat) : Option Nat :=
  (Primitive.regex (anchored Token.id.expression) (Regex.describe Token.id.source "") input
    start).stop?

/-- The offset after a name, if there is one. -/
def afterName (input : List Char) (start : Nat) : Nat :=
  (nameEnd? input start).getD start

/-- A literal ends where its text does. -/
theorem literal_endsAt (string : String) :
    (program.matcher fuel scope (.literal string) input start).EndsAt
      (literalEnd? string input start) start := by
  cases fuel with
  | zero => trivial
  | succ fuel => exact .primitive (Primitive.literal_isReading string) _

/-- A rule ensures what it does with every fuel. -/
theorem call_ensures {P : Value → Nat → Prop} {Q : Failure → Prop}
    (h : ∀ fuel, (program.call fuel name.number none input start).Ensures P Q) :
    (program.matcher fuel scope (call name) input start).Ensures P Q := by
  cases fuel with
  | zero => trivial
  | succ fuel => exact h fuel

/-- A rule with one alternative ends where its items do. -/
theorem rule_ensures {alternative : CompiledAlternative} (h : alternativesOf name = [alternative])
    {P : Nat → Prop} {Q : Failure → Prop}
    (hitems : (itemsFrom (program.matcher fuel) alternative.items none [] input start).Ensures
      (fun _ => P) Q) :
    (program.call fuel name.number none input start).Ensures (fun _ => P) Q := by
  have halternative : (Program.matchAlternative (program.matcher fuel) alternative none input
      start).Ensures (fun _ => P) Q :=
    Run.Ensures.andThen hitems fun _ _ hstop => hstop
  unfold Program.call Program.matchRule
  rw [rules_number, compiledRule, h]
  dsimp only
  rw [List.map_singleton, Combinator.choice]
  generalize Program.matchAlternative _ _ _ _ _ = run at halternative
  rcases run with - | ⟨events, ⟨value, stop⟩ | failure | fault⟩
  · trivial
  · exact halternative
  · exact halternative
  · trivial

/-- A name ends where its characters do. -/
theorem name_endsAt :
    (program.matcher fuel scope (call .id) input start).EndsAt (nameEnd? input start) start := by
  refine call_ensures fun fuel => rule_ensures rfl ?_
  refine Program.itemsFrom_cons_ensures ?_
  cases fuel with
  | zero => trivial
  | succ fuel =>
    exact (Run.EndsAt.primitive (Primitive.regex_isReading _ _) _).mono (fun _ _ hstop => hstop)
      fun _ hfailure => hfailure

/-- A name or none: this cannot fail. -/
theorem optional_name_ends :
    (program.matcher fuel scope (optional (call .id)) input start).Ensures
      (fun _ stop => stop = afterName input start) fun _ => False := by
  cases fuel with
  | zero => trivial
  | succ fuel => exact .mapValue _ (Combinator.optional_endsAt name_endsAt)

/-- What begins like a template ends at the backquote after the name. -/
theorem tplHead_endsAt :
    (program.matcher fuel scope (call .tplHead) input start).EndsAt
      (literalEnd? "`" input (afterName input start)) (afterName input start) := by
  refine call_ensures fun fuel => rule_ensures rfl ?_
  refine Program.itemsFrom_cons_ensures (optional_name_ends.mono ?_ fun _ h => h.elim)
  rintro value stop rfl
  refine Program.itemsFrom_cons_ensures ((literal_endsAt "`").mono ?_ fun _ h => h)
  exact fun _ _ hstop => hstop

/-- What begins like an application ends at the parenthesis after the name. -/
theorem applyHead_endsAt :
    (program.matcher fuel scope (call .applyHead) input start).EndsAt
      ((nameEnd? input start).bind (literalEnd? "(" input)) (afterName input start) := by
  refine call_ensures fun fuel => rule_ensures rfl ?_
  refine Program.itemsFrom_cons_ensures (name_endsAt.mono ?_ ?_)
  · intro value stop hstop
    rw [afterName, hstop, Option.getD_some, Option.bind_some]
    refine Program.itemsFrom_cons_ensures ((literal_endsAt "(").mono ?_ fun _ h => h)
    exact fun _ _ hstop => hstop
  · rintro failure ⟨hnone, hposition⟩
    rw [afterName, hnone]
    exact ⟨rfl, hposition⟩

/-! ### What is read again -/

/-- Nothing in the grammar of grammars matches backward. -/
theorem every_isForward : program.Every fun m => m.isForward = true :=
  every_isPlain.mono fun m hm => by
    cases m with
    | backtrack inner => cases hm
    | external name transformer inner => cases hm
    | _ => rfl

/-- Items that are left come no further back. -/
theorem itemsFrom_reaches (hothers : ∀ item ∈ others, item.Every fun m => m.isForward = true) :
    (itemsFrom (program.matcher fuel) others param captures input start).Reaches start := by
  refine .of_forward (Program.itemsFrom_follows (fun item hitem captures => ?_) input start)
    (Nat.le_refl start)
  exact Program.matcher_follows (every_isForward.mono fun _ => Course.forward_permits) fuel _
    ((hothers item hitem).mono fun _ => Course.forward_permits)

/-- A backquote after an optional name is read. -/
theorem reaches_backquote (hothers : ∀ item ∈ others, item.Every fun m => m.isForward = true)
    (hstop : literalEnd? "`" input (afterName input start) = some stop) :
    (itemsFrom (program.matcher fuel) (optional (call .id) :: .literal "`" :: others) param captures
      input start).Reaches stop := by
  refine Program.itemsFrom_cons_ensures (optional_name_ends.mono ?_ fun _ h => h.elim)
  rintro value middle rfl
  refine Program.itemsFrom_cons_ensures ((literal_endsAt "`").mono ?_ ?_)
  · intro value stop' hstop'
    obtain rfl : stop = stop' := Option.some.inj (hstop.symm.trans hstop')
    exact itemsFrom_reaches hothers
  · rintro failure ⟨hnone, -⟩
    rw [hstop] at hnone
    cases hnone

/-- A name is read if there is one. -/
theorem reaches_name (hothers : ∀ item ∈ others, item.Every fun m => m.isForward = true) :
    (itemsFrom (program.matcher fuel) (call .id :: others) param captures input start).Reaches
      (afterName input start) := by
  refine Program.itemsFrom_cons_ensures (name_endsAt.mono ?_ ?_)
  · intro value stop hstop
    rw [afterName, hstop]
    exact itemsFrom_reaches hothers
  · rintro failure ⟨hnone, hposition⟩
    rw [afterName, hnone, hposition]
    exact Nat.le_refl start

/-- So is a parenthesis after a name. -/
theorem reaches_parenthesis (hothers : ∀ item ∈ others, item.Every fun m => m.isForward = true)
    (hstop : (nameEnd? input start).bind (literalEnd? "(" input) = some stop) :
    (itemsFrom (program.matcher fuel) (call .id :: .literal "(" :: others) param captures input
      start).Reaches stop := by
  obtain ⟨middle, hmiddle, hstop⟩ := Option.bind_eq_some_iff.1 hstop
  refine Program.itemsFrom_cons_ensures (name_endsAt.mono ?_ ?_)
  · intro value middle' hmiddle'
    obtain rfl : middle = middle' := Option.some.inj (hmiddle.symm.trans hmiddle')
    refine Program.itemsFrom_cons_ensures ((literal_endsAt "(").mono ?_ ?_)
    · intro value stop' hstop'
      obtain rfl : stop = stop' := Option.some.inj (hstop.symm.trans hstop')
      exact itemsFrom_reaches hothers
    · rintro failure ⟨hnone, -⟩
      rw [hstop] at hnone
      cases hnone
  · rintro failure ⟨hnone, -⟩
    rw [hmiddle] at hnone
    cases hnone

/-! ### Rules -/

/-- An alternative comes as far as its items do. -/
theorem alternative_reaches {alternative : CompiledAlternative} {reach : Nat}
    (h : (itemsFrom (program.matcher fuel) alternative.items param [] input start).Reaches reach) :
    (Program.matchAlternative (program.matcher fuel) alternative param input start).Reaches reach :=
  Run.Ensures.andThen h fun _ _ hstop => hstop

/-- A template comes at least to its backquote. -/
theorem template_reaches (hstop : literalEnd? "`" input (afterName input start) = some stop) :
    (itemsFrom (program.matcher fuel) [call .template] param captures input start).Reaches stop := by
  refine Program.itemsFrom_cons_ensures (call_ensures fun fuel => ?_)
  exact rule_ensures (show alternativesOf .template = _ from rfl)
    (reaches_backquote (by decide) hstop)

/-- An application comes at least to the end of its name. -/
theorem apply_reaches_name :
    (itemsFrom (program.matcher fuel) [call .apply] param captures input start).Reaches
      (afterName input start) := by
  refine Program.itemsFrom_cons_ensures (call_ensures fun fuel => ?_)
  exact rule_ensures (show alternativesOf .apply = _ from rfl) (reaches_name (by decide))

/-- With a parenthesis behind the name, it comes to this. -/
theorem apply_reaches (hstop : (nameEnd? input start).bind (literalEnd? "(" input) = some stop) :
    (itemsFrom (program.matcher fuel) [call .apply] param captures input start).Reaches stop := by
  refine Program.itemsFrom_cons_ensures (call_ensures fun fuel => ?_)
  exact rule_ensures (show alternativesOf .apply = _ from rfl)
    (reaches_parenthesis (by decide) hstop)

/-- A literal that must not follow is refused nowhere but at the start. -/
theorem negative_follows (string : String) :
    (program.matcher fuel scope (.negative (.literal string))).Follows .furthest := by
  intro input start
  rcases fuel with - | - | fuel
  · trivial
  · trivial
  · refine Run.Follows.mapValue _ ?_
    show ((Run.primitive ((Primitive.literal string input start).map Value.str)).resume _ _).Follows
      _ _ _
    have hliteral : Primitive.IsReading input start (Primitive.literal string input start) :=
      Primitive.literal_isReading string
    generalize Primitive.literal string input start = outcome at hliteral ⊢
    rcases outcome with ⟨text, stop⟩ | failure | fault
    · exact .refuse _
    · have hafter : ∀ next : Run String, (∀ course : Course, next.Follows course input start) →
          (next.after [.refused failure]).Follows .furthest input start := by
        intro next hnext
        refine (hnext .furthest).after_reached fun event hevent => ?_
        obtain rfl := List.mem_singleton.1 hevent
        have hposition : failure.position = start := hliteral
        exact .of_forward (hnext .forward) hposition.le
      refine hafter _ fun course => ?_
      split
      · rename_i c rest hrest
        exact course.read [c] hrest
      · exact .refuse _
    · exact hliteral.elim

/-- An application begins with a name, and so does what is tried without one. -/
theorem apply_or_name_reaches :
    (Combinator.choice
      ([applyAlternative, nameAlternative].map fun alternative =>
        Program.matchAlternative (program.matcher fuel) alternative param) input start).Reaches
          (afterName input start) := by
  show (Combinator.choice [Program.matchAlternative _ applyAlternative param,
    Program.matchAlternative _ nameAlternative param] input start).Reaches _
  rw [Combinator.choice_eq_retry]
  cases fuel with
  | zero => trivial
  | succ fuel =>
    obtain ⟨valueOf, hlook⟩ := Program.matchAlternative_look
    rw [applyAlternative, pick, hlook]
    refine Run.Reaches.lookahead ((Run.Ensures.any _).mono (fun value _ _ => ?_) fun _ h => h) ?_
    · exact Run.Ensures.andThen apply_reaches_name fun _ _ h => h
    · exact alternative_reaches (reaches_name (by decide))

section Calls

variable (hcalls : ∀ less < fuel, ∀ id param,
  (program.call less id param).Follows .furthest)
include hcalls

/-- Without a lookahead that forgets, a matcher follows the general course. -/
theorem direct_follows {m : Matcher} (hm : m.Every fun part => part.isDirect = true) :
    (program.matcher fuel scope m).Follows .furthest :=
  Program.matcher_follows_of_calls fuel hcalls scope (hm.mono fun _ => Course.furthest_permits)

/-- So does an alternative of such matchers. -/
theorem alternative_follows {alternative : CompiledAlternative}
    (h : ∀ item ∈ alternative.items, item.Every fun part => part.isDirect = true) :
    (Program.matchAlternative (program.matcher fuel) alternative param).Follows .furthest :=
  Program.matchAlternative_follows fun item hitem _ => direct_follows hcalls (h item hitem)

/-- The text of a pasta block is read character by character, and refusals are where an attempt
starts. -/
theorem pastaText_follows :
    (program.call fuel Name.pastaText.number param).Follows .furthest := by
  intro input start
  refine Program.matchRule_follows_of_choice (rules_number .pastaText) ?_
  refine Program.matchAlternative_follows (fun item hitem captures => ?_) input start
  obtain rfl := List.mem_singleton.1 hitem
  cases fuel with
  | zero => exact fun _ _ => trivial
  | succ fuel =>
    intro input start
    exact (Combinator.many_follows (negative_follows _) fuel input start).mapValue _

/-- An alternative that looks ahead, and those that come after it.  What the lookahead has come past
is reached by the other items, and if it fails by what is tried next. -/
theorem lookahead_follows {head : Name} {items : List Matcher} {mapper : Option MapperExpr}
    {next : Matching Value} {others : List (Matching Value)}
    (hitems : ∀ item ∈ items, item.Every fun part => part.isDirect = true)
    (hothers : (Combinator.choice (next :: others) input start).Follows .furthest input start)
    {stop? : Option Nat} {refused : Nat}
    (hhead : ∀ less < fuel, (program.matcher less ⟨param, []⟩ (call head) input start).EndsAt
      stop? refused)
    (hreached : ∀ captures stop, stop? = some stop →
      (itemsFrom (program.matcher fuel) items param captures input start).Reaches stop)
    (hrefused : stop? = none →
      (Combinator.choice (next :: others) input start).Reaches refused) :
    (Combinator.choice (Program.matchAlternative (program.matcher fuel)
      ⟨.look (call head) :: items, mapper⟩ param :: next :: others) input start).Follows
        .furthest input start := by
  rw [Combinator.choice_eq_retry]
  cases fuel with
  | zero => trivial
  | succ fuel =>
    obtain ⟨valueOf, hlook⟩ := Program.matchAlternative_look
    rw [hlook]
    refine Run.Follows.lookahead ?_ (fun value => ?_) hothers
      ((hhead fuel (Nat.lt_succ_self fuel)).mono ?_ ?_)
    · exact direct_follows (fun less hless => hcalls less (Nat.lt_succ_of_lt hless))
        (by simp [Matcher.Every, call, Matcher.parts, Matcher.isDirect]) input start
    · refine Run.Follows.andThen (Program.itemsFrom_follows (fun item hitem _ => ?_) input start)
        fun _ _ => .stay _
      exact direct_follows hcalls (hitems item hitem)
    · intro value stop hstop
      exact Run.Ensures.andThen (hreached _ stop hstop) fun _ _ h => h
    · rintro failure ⟨hnone, hposition⟩
      rw [hposition]
      exact hrefused hnone

/-- A template is read again as far as the backquote; without one the name is. -/
theorem rule_follows : (program.call fuel Name.rule.number param).Follows .furthest := by
  intro input start
  refine Program.matchRule_follows_of_choice (rules_number .rule) ?_
  refine lookahead_follows hcalls (by decide) ?_ (fun _ _ => tplHead_endsAt) ?_ fun _ => ?_
  · exact alternative_follows hcalls (by decide) input start
  · exact fun captures stop hstop => reaches_backquote (by decide) hstop
  · exact alternative_reaches (reaches_name (by decide))

/-- So is an application, as far as its parenthesis, and at last the name alone. -/
theorem apply_or_name_follows :
    (Combinator.choice
      ([applyAlternative, nameAlternative].map fun alternative =>
        Program.matchAlternative (program.matcher fuel) alternative param) input start).Follows
          .furthest input start := by
  refine lookahead_follows hcalls (by decide) ?_ (fun _ _ => applyHead_endsAt) ?_ fun _ => ?_
  · exact alternative_follows hcalls (by decide) input start
  · exact fun captures stop hstop => apply_reaches hstop
  · exact alternative_reaches (reaches_name (by decide))

/-- The alternatives of a simple pattern, each with the reason why it reaches what was read before
it. -/
theorem simple_follows : (program.call fuel Name.simple.number param).Follows .furthest := by
  intro input start
  refine Program.matchRule_follows_of_choice (rules_number .simple) ?_
  rw [compiledRule, alternativesOf_simple, List.map_append]
  refine Combinator.choice_append_follows ?_ (by simp) ?_
  · intro matching hmatching
    obtain ⟨alternative, halternative, rfl⟩ := List.mem_map.1 hmatching
    have hdirect : ∀ alternative ∈ told, ∀ item ∈ alternative.items,
        item.Every fun part => part.isDirect = true := by decide
    exact alternative_follows hcalls (hdirect alternative halternative)
  · refine lookahead_follows hcalls (by decide) ?_ (fun _ _ => tplHead_endsAt) ?_ fun _ => ?_
    · exact apply_or_name_follows hcalls
    · exact fun captures stop hstop => template_reaches hstop
    · exact apply_or_name_reaches

end Calls

/-- Every rule follows the course. -/
theorem call_follows (fuel id : Nat) (param : Option String) :
    (program.call fuel id param).Follows .furthest := by
  induction fuel using Nat.strong_induction_on generalizing id param with
  | _ fuel hcalls =>
    rcases hrule : program.rules[id]? with - | rule
    · intro input start
      unfold Program.call Program.matchRule
      rw [hrule]
      exact ⟨id, rfl⟩
    · obtain ⟨name, rfl, rfl⟩ := exists_name hrule
      by_cases hdirect : ∀ alternative ∈ alternativesOf name, ∀ item ∈ alternative.items,
          item.Every fun part => part.isDirect = true
      · refine Program.matchRule_follows fun rule hrule' alternative halternative item hitem _ => ?_
        obtain rfl := Option.some.inj (hrule.symm.trans hrule')
        exact direct_follows hcalls (hdirect alternative halternative item hitem)
      · -- three rules are left
        have hname : name = .pastaText ∨ name = .rule ∨ name = .simple := by
          revert hdirect
          cases name <;> decide
        rcases hname with rfl | rfl | rfl
        · exact pastaText_follows hcalls
        · exact rule_follows hcalls
        · exact simple_follows hcalls

end Meta

/-! ### Reading grammars -/

namespace Grammar

/-- A mistake is reported at the furthest position.  Whatever literal or regular expression the
grammar of grammars has refused on the way, in a lookahead or in an alternative that was given up,
it was not refused further on than where a syntax error is, or where the text begins that is left
over after the last rule. -/
theorem refused_le_error {program : Program} (hprogram : metaProgram = .ok program)
    {source : String} {error : CompileError} (herror : parse source = .error error) :
    ∀ refusal, .refused refusal ∈ (program.executeWithEvents source.toList none false).1 →
      (∀ failure, error.cause = .expected failure → refusal.position ≤ failure.position) ∧
      (error.cause = .leftover → refusal.position ≤ error.span.start) := by
  obtain rfl := Except.ok.inj (metaProgram_eq.symm.trans hprogram)
  intro refusal hrefusal
  have hentry : Meta.program.entry? = some Meta.Name.grammar.number := by decide
  simp only [Program.executeWithEvents, Program.startRule, hentry] at hrefusal
  -- the whole run keeps the bound, and the error is where it stops
  have hfollows := Meta.call_follows (Meta.program.fuel source.toList) Meta.Name.grammar.number none
    source.toList 0
  rcases parse_eq source with ⟨events, tree, stop, hrun, hparse⟩ | ⟨events, failure, hrun, hparse⟩
  · rw [hrun] at hrefusal
    rw [show Meta.program.call _ _ none source.toList 0 = _ from hrun] at hfollows
    have hle : refusal.position ≤ stop := hfollows.2 _ hrefusal
    rw [hparse, ofMatch] at herror
    split at herror
    · obtain rfl := Except.error.inj herror
      refine ⟨fun _ hcause => ?_, fun _ => hle⟩
      cases hcause
    · -- a text that is matched as a whole has another kind of error
      rcases Meta.decodes_tree hrun with ⟨⟨grammar, hgrammar⟩, -⟩ | ⟨⟨part, hmalformed⟩, -⟩
      · rw [hgrammar] at herror
        cases herror
      · rw [hmalformed] at herror
        obtain rfl := Except.error.inj herror
        refine ⟨fun _ hcause => ?_, fun hcause => ?_⟩ <;> cases hcause
  · rw [hrun] at hrefusal
    rw [show Meta.program.call _ _ none source.toList 0 = _ from hrun] at hfollows
    rw [hparse] at herror
    obtain rfl := Except.error.inj herror
    refine ⟨fun reported hreported => ?_, fun hcause => by cases hcause⟩
    obtain rfl := CompileError.Cause.expected.inj hreported
    exact hfollows.2 _ hrefusal

end Grammar

namespace Unclosed

/-- A template without its second backquote. -/
def template : List Char :=
  ['p', '=', '.', 'q', '`', 'x']

/-- A rule, and something that no rule begins with. -/
def surplus : List Char :=
  ['p', '=', '.', ';', '?']

/-- Whether a text is refused with an error. -/
def isRefused (text : List Char) (error : CompileError) : Bool :=
  match Grammar.ofChars text with
  | .error found => found == error
  | .ok _ => false

theorem parse_of_isRefused {text : List Char} {error : CompileError}
    (h : isRefused text error = true) :
    Grammar.parse (String.ofList text) = .error error := by
  rw [Grammar.parse_ofList]
  unfold isRefused at h
  split at h
  · rename_i found hfound
    rw [hfound, eq_of_beq h]
  · cases h

/-- Whether a refusal is among the events of reading a text. -/
def isRecorded (refusal : Failure) (text : List Char) : Bool :=
  (Meta.program.executeWithEvents text none false).1.any fun
    | .refused other => other == refusal
    | _ => false

theorem refused_of_isRecorded {refusal : Failure} {text : List Char}
    (h : isRecorded refusal text = true) :
    .refused refusal ∈ (Meta.program.executeWithEvents text none false).1 := by
  obtain ⟨event, hevent, hrefused⟩ := List.any_eq_true.1 h
  cases event with
  | refused other => exact eq_of_beq hrefused ▸ hevent
  | _ => cases hrefused

/-- The backquote is missing at the end, and the other text has a rule up to its fourth character.
Something is refused there, and nothing further on. -/
theorem refused_before :
    (∃ error, Grammar.parse (String.ofList template) = .error error ∧
      error.cause = .expected ⟨"`", 6⟩ ∧
      .refused ⟨"`", 6⟩ ∈ (Meta.program.executeWithEvents template none false).1 ∧
      ∀ refusal, .refused refusal ∈ (Meta.program.executeWithEvents template none false).1 →
        refusal.position ≤ 6) ∧
    ∃ error, Grammar.parse (String.ofList surplus) = .error error ∧ error.cause = .leftover ∧
      .refused ⟨"%\x7b", 4⟩ ∈ (Meta.program.executeWithEvents surplus none false).1 ∧
      ∀ refusal, .refused refusal ∈ (Meta.program.executeWithEvents surplus none false).1 →
        refusal.position ≤ 4 := by
  constructor
  · have herror : Grammar.parse (String.ofList template) =
        .error ⟨⟨6, 6⟩, .expected ⟨"`", 6⟩, none⟩ := parse_of_isRefused (by decide +kernel)
    have hrecorded : .refused ⟨"`", 6⟩ ∈ (Meta.program.executeWithEvents template none false).1 :=
      refused_of_isRecorded (by decide +kernel)
    refine ⟨_, herror, rfl, hrecorded, fun refusal hrefusal => ?_⟩
    rw [← String.toList_ofList (l := template)] at hrefusal
    exact (Grammar.refused_le_error metaProgram_eq herror refusal hrefusal).1 _ rfl
  · have herror : Grammar.parse (String.ofList surplus) =
        .error ⟨⟨4, 5⟩, .leftover, some "rules are written as: name = patterns ;"⟩ :=
      parse_of_isRefused (by decide +kernel)
    have hrecorded : .refused ⟨"%\x7b", 4⟩ ∈ (Meta.program.executeWithEvents surplus none false).1 :=
      refused_of_isRecorded (by decide +kernel)
    refine ⟨_, herror, rfl, hrecorded, fun refusal hrefusal => ?_⟩
    rw [← String.toList_ofList (l := surplus)] at hrefusal
    exact (Grammar.refused_le_error metaProgram_eq herror refusal hrefusal).2 rfl

end Unclosed

end Peg
