/-
Peg/Proofs/Program/Active.lean

No rule is entered again while it is active.

`Program.watched` is the interpreter with a list of the invocations that have
not ended: a rule, its parameter, the text and the offset it was entered at.
Entering one of them again springs a trap.  That no trap is ever sprung means

    watched trap fuel active scope m input start = matcher fuel scope m input start

whatever the trap and the fuel are, so also for runs that never end.  One that
is sprung would show: the trap may be a fault, from which nothing recovers.

An active invocation is kept `Apart` from all that is still to be matched, in
one of three ways.  The rules that may be called have smaller levels; or the
match goes forward on its text, and the rules that may be called at its own
offset have smaller ranks; or it was started with a parameter that no call
gives.  Reading on, going behind and entering a rule all keep it apart, which
is one lemma each, and `watched_eq` puts them together by induction on the
fuel.

The check for left recursion gives the ranks and `IsStratified` the levels.
Without the levels the check does not keep what it promises: a backward
matcher at the beginning of a text starts at the beginning of a text.
-/
import Peg.Proofs.Grammar.Terminates
import Peg.Proofs.Program.Course
import Peg.Proofs.Program.Stratified

namespace Peg

/-! ### Invocations -/

/-- An application of a rule at an offset of a text. -/
structure Invocation where
  rule : Nat
  param : String
  input : List Char
  start : Nat
  deriving DecidableEq

namespace Program

/-- A rule that is only entered if it is not active yet. -/
def watchRule (program : Program) (trap : Run Value) (step : List Invocation → Step)
    (active : List Invocation) (id : Nat) (param : Option String) : Matching Value :=
  fun input start =>
    let invocation : Invocation := ⟨id, param.getD "", input, start⟩
    if invocation ∈ active then trap
    else program.matchRule (step (invocation :: active)) id param input start

/-- The meaning of a matcher while some invocations are active, with a trap for those that are
entered again. -/
def watched (program : Program) (trap : Run Value) : (fuel : Nat) → List Invocation → Step
  | 0, _, _, _, _, _ => none
  | fuel + 1, active, scope, m, input, start =>
    let step := watched program trap fuel active
    let enter := program.watchRule trap (watched program trap fuel) active
    match m with
    | .rule id => enter id none input start
    | .template id argument => enter id (some argument) input start
    | .negative inner => (Combinator.negative (step scope inner) input start).mapValue .str
    | .look inner => Combinator.look (step scope inner) input start
    | .attempt inner => Combinator.attempt (step scope inner) input start
    | .backtrack inner => Combinator.backtrack (step scope inner) input start
    | .external _ (some transformer) inner => transformer (step scope inner) input start
    | .group items important =>
      (matchItems step items scope.param input start).mapValue (groupValue important)
    | .repeated inner .optional =>
      (Combinator.optional (step scope inner) input start).mapValue Value.ofOption
    | .repeated inner .any =>
      (Combinator.many fuel (step scope inner) input start).mapValue .list
    | .repeated inner .oneOrMore =>
      (Combinator.many1 fuel (step scope inner) input start).mapValue .list
    | .literal _ | .regex _ _ | .any | .param | .variable _ | .external _ none _ =>
      program.matcher (fuel + 1) scope m input start

/-- A rule that is watched from the start, with a literal for its parameter and so much fuel. -/
abbrev watchedCall (program : Program) (trap : Run Value) (fuel id : Nat)
    (param : Option String) : Matching Value :=
  program.watchRule trap (program.watched trap fuel) [] id param

/-- No rule is entered while it is active with the same parameter, on the same text and at the same
offset, in any run. -/
def NeverReenters (program : Program) : Prop :=
  ∀ trap fuel id param input start,
    program.watchedCall trap fuel id param input start = program.call fuel id param input start

end Program

/-! ### What is ahead -/

/-- The rules that may be called by what is still to be matched. -/
structure Ahead where
  calls : List Nat
  /-- Those that may be called on another text or after going back. -/
  behind : List Nat
  /-- Those that may be called before anything is read. -/
  left : List Nat

section

variable {program : Program} {forward : Nat → Bool} {level rank : Nat → Nat}
variable {emptyParam : Bool} {param : Option String} {input : List Char} {start : Nat}

/-- The call of a rule. -/
def Ahead.call (id : Nat) : Ahead :=
  ⟨[id], [], [id]⟩

/-- The calls of a matcher. -/
def Matcher.ahead (program : Program) (forward : Nat → Bool) (emptyParam : Bool) (m : Matcher) :
    Ahead :=
  ⟨m.calls, m.callsBehind forward, m.leftCalls program.nullable emptyParam⟩

/-- The calls of a sequence. -/
def aheadOfAll (program : Program) (forward : Nat → Bool) (emptyParam : Bool)
    (items : List Matcher) : Ahead :=
  ⟨callsOfAll items, callsBehindAll forward items, leftCallsOfAll program.nullable emptyParam items⟩

/-- Why an active invocation is not entered again by what is ahead. -/
inductive Apart (program : Program) (level rank : Nat → Nat) (ahead : Ahead) (input : List Char)
    (start : Nat) (invocation : Invocation) : Prop
  /-- The rules that may be called are below. -/
  | above (hcalls : ∀ next ∈ ahead.calls, level next < level invocation.rule)
  /-- The match has not gone back, and has left its offset or calls rules of smaller rank. -/
  | before (hinput : invocation.input = input) (hstart : invocation.start ≤ start)
      (hcalls : ∀ next ∈ ahead.calls, level next ≤ level invocation.rule)
      (hbehind : ∀ next ∈ ahead.behind, level next < level invocation.rule)
      (hleft : invocation.start = start →
        program.CallsBelow rank (rank invocation.rule) ahead.left)
  /-- It is a template that is nowhere given the empty literal, but was. -/
  | foreign (hparam : invocation.param = "")
      (hinstance : program.hasEmptyInstance invocation.rule = false) {rule : CompiledRule}
      (hrule : program.rules[invocation.rule]? = some rule) {part : Matcher}
      (hpart : part ∈ rule.parts) (hisParam : part.isParam = true)

namespace Apart

variable {ahead ahead' : Ahead} {invocation : Invocation}

/-- Reading on, or standing still with the same or fewer calls. -/
theorem progress (h : Apart program level rank ahead input start invocation) {nullable : Bool}
    {stop : Nat} (hstop : Progress input start nullable stop) (hcalls : ahead'.calls ⊆ ahead.calls)
    (hbehind : ahead'.behind ⊆ ahead.behind) (hleft : nullable = true → ahead'.left ⊆ ahead.left) :
    Apart program level rank ahead' input stop invocation := by
  cases h with
  | above hlevel => exact .above fun next hnext => hlevel next (hcalls hnext)
  | before hinput hstart hlevel hbelow hrank =>
    refine .before hinput ?_ (fun next hnext => hlevel next (hcalls hnext))
      (fun next hnext => hbelow next (hbehind hnext)) ?_
    · rcases hstop with ⟨rfl, -⟩ | ⟨hlt, -⟩
      · exact hstart
      · exact hstart.trans hlt.le
    · intro hsame
      rcases hstop with ⟨rfl, hnullable⟩ | ⟨hlt, -⟩
      · exact fun next hnext => hrank hsame next (hleft hnullable hnext)
      · omega
  | foreign hparam hinstance hrule hpart hisParam =>
    exact .foreign hparam hinstance hrule hpart hisParam

/-- Anywhere else, with calls that count as being behind. -/
theorem behind (h : Apart program level rank ahead input start invocation)
    (hcalls : ahead'.calls ⊆ ahead.calls) (hbehind : ahead'.calls ⊆ ahead.behind)
    (input' : List Char) (start' : Nat) :
    Apart program level rank ahead' input' start' invocation := by
  cases h with
  | above hlevel => exact .above fun next hnext => hlevel next (hcalls hnext)
  | before hinput hstart hlevel hbelow hrank =>
    -- the text and the offset no longer tell, so the levels have to
    exact .above fun next hnext => hbelow next (hbehind hnext)
  | foreign hparam hinstance hrule hpart hisParam =>
    exact .foreign hparam hinstance hrule hpart hisParam

/-- A call is not that of an active invocation. -/
theorem ne {id : Nat} (h : Apart program level rank (.call id) input start invocation)
    (hid : id < program.rules.length) {argument : String}
    (hinstance : argument = "" → ∀ rule, program.rules[id]? = some rule → ∀ part ∈ rule.parts,
      part.isParam = true → program.hasEmptyInstance id = true) :
    (⟨id, argument, input, start⟩ : Invocation) ≠ invocation := by
  rintro rfl
  have hself : id ∈ (Ahead.call id).calls := List.mem_singleton_self id
  cases h with
  | above hlevel => exact Nat.lt_irrefl _ (hlevel id hself)
  | before _ _ _ _ hrank => exact Nat.lt_irrefl _ (hrank rfl id hself hid)
  | foreign hparam hnone hrule hpart hisParam =>
    have hsome : program.hasEmptyInstance id = true := hinstance hparam _ hrule _ hpart hisParam
    exact absurd (hsome.symm.trans hnone) (by decide)

/-- Entering a rule keeps the other invocations apart from its alternatives. -/
theorem enter (hstratified : program.Stratified forward level) (hranked : program.Ranked rank)
    {id : Nat} {rule : CompiledRule} (hrule : program.rules[id]? = some rule)
    {alternative : CompiledAlternative} (halternative : alternative ∈ rule.alternatives)
    (h : Apart program level rank (.call id) input start invocation) :
    Apart program level rank
      (aheadOfAll program forward (program.hasEmptyInstance id) alternative.items) input start
      invocation := by
  have hself : id ∈ (Ahead.call id).calls := List.mem_singleton_self id
  have hahead := hstratified.ahead id rule hrule alternative halternative
  have hbehind := hstratified.behind id rule hrule alternative halternative
  cases h with
  | above hlevel =>
    exact .above fun next hnext => (hahead next hnext).trans_lt (hlevel id hself)
  | before hinput hstart hlevel _ hrank =>
    refine .before hinput hstart (fun next hnext => (hahead next hnext).trans (hlevel id hself))
      (fun next hnext => (hbehind next hnext).trans_le (hlevel id hself)) ?_
    -- where the invocation was entered, two left calls in a row drop the rank twice
    intro hsame next hnext hlt
    have hdrop : rank next < rank id := hranked.callsBelow hrule halternative next hnext hlt
    exact hdrop.trans (hrank hsame id hself (List.getElem?_eq_some_iff.1 hrule).1)
  | foreign hparam hinstance hrule hpart hisParam =>
    exact .foreign hparam hinstance hrule hpart hisParam

/-- The invocation itself is kept apart from its own alternatives: those of its calls that are
neither behind nor after something was read are its left calls. -/
theorem entered (hstratified : program.Stratified forward level) (hranked : program.Ranked rank)
    {id : Nat} {rule : CompiledRule} (hrule : program.rules[id]? = some rule)
    {alternative : CompiledAlternative} (halternative : alternative ∈ rule.alternatives)
    (argument : String) :
    Apart program level rank
      (aheadOfAll program forward (program.hasEmptyInstance id) alternative.items) input start
      ⟨id, argument, input, start⟩ :=
  .before rfl (Nat.le_refl start) (hstratified.ahead id rule hrule alternative halternative)
    (hstratified.behind id rule hrule alternative halternative)
    fun _ => hranked.callsBelow hrule halternative

end Apart

/-! ### No trap is sprung -/

namespace Program

/-- Every active invocation is kept apart from what is ahead. -/
def Clear (program : Program) (level rank : Nat → Nat) (active : List Invocation) (ahead : Ahead)
    (input : List Char) (start : Nat) : Prop :=
  ∀ invocation ∈ active, Apart program level rank ahead input start invocation

variable {active : List Invocation} {ahead ahead' : Ahead} {trap : Run Value} {fuel : Nat}

theorem Clear.progress (h : program.Clear level rank active ahead input start) {nullable : Bool}
    {stop : Nat} (hstop : Progress input start nullable stop) (hcalls : ahead'.calls ⊆ ahead.calls)
    (hbehind : ahead'.behind ⊆ ahead.behind) (hleft : nullable = true → ahead'.left ⊆ ahead.left) :
    program.Clear level rank active ahead' input stop :=
  fun invocation hactive => (h invocation hactive).progress hstop hcalls hbehind hleft

theorem Clear.behind (h : program.Clear level rank active ahead input start)
    (hcalls : ahead'.calls ⊆ ahead.calls) (hbehind : ahead'.calls ⊆ ahead.behind)
    (input' : List Char) (start' : Nat) : program.Clear level rank active ahead' input' start' :=
  fun invocation hactive => (h invocation hactive).behind hcalls hbehind input' start'

section

variable {item : Matcher} {items : List Matcher}

/-- The first item of a sequence calls no more than the sequence. -/
theorem Clear.head
    (h : program.Clear level rank active (aheadOfAll program forward emptyParam (item :: items))
      input start) :
    program.Clear level rank active (item.ahead program forward emptyParam) input start := by
  refine h.progress (.stay input start) ?_ ?_ fun _ => ?_
  · show item.calls ⊆ callsOfAll (item :: items)
    rw [callsOfAll_cons]
    exact List.subset_append_left ..
  · exact List.subset_append_left ..
  · exact List.subset_append_left ..

/-- After an item that advances, the others are ahead. -/
theorem Clear.tail
    (h : program.Clear level rank active (aheadOfAll program forward emptyParam (item :: items))
      input start) (hadvances : item.advances forward = true) {stop : Nat}
    (hstop : Progress input start (item.isNullable program.nullable emptyParam) stop) :
    program.Clear level rank active (aheadOfAll program forward emptyParam items) input stop := by
  refine h.progress hstop ?_ ?_ fun hnullable => ?_
  · show callsOfAll items ⊆ callsOfAll (item :: items)
    rw [callsOfAll_cons]
    exact List.subset_append_right ..
  · show callsBehindAll forward items ⊆ callsBehindAll forward (item :: items)
    rw [callsBehindAll, if_pos hadvances]
    exact List.subset_append_right ..
  · show leftCallsOfAll program.nullable emptyParam items ⊆
      leftCallsOfAll program.nullable emptyParam (item :: items)
    rw [leftCallsOfAll, if_pos hnullable]
    exact List.subset_append_right ..

/-- After an item that may have stopped anywhere, they are behind. -/
theorem Clear.tail_behind
    (h : program.Clear level rank active (aheadOfAll program forward emptyParam (item :: items))
      input start) (hadvances : ¬item.advances forward = true) (stop : Nat) :
    program.Clear level rank active (aheadOfAll program forward emptyParam items) input stop := by
  refine h.behind ?_ ?_ input stop
  · show callsOfAll items ⊆ callsOfAll (item :: items)
    rw [callsOfAll_cons]
    exact List.subset_append_right ..
  · show callsOfAll items ⊆ callsBehindAll forward (item :: items)
    rw [callsBehindAll, if_neg hadvances]
    exact List.subset_append_right ..

end

/-- With so much fuel no trap is sprung by a matcher that is clear of what is active. -/
def Unsprung (program : Program) (forward : Nat → Bool) (level rank : Nat → Nat) (trap : Run Value)
    (fuel : Nat) : Prop :=
  ∀ {active : List Invocation} {m : Matcher} {param : Option String} {emptyParam : Bool},
    program.Contains m → m.Fits param emptyParam → ∀ captures input start,
      program.Clear level rank active (m.ahead program forward emptyParam) input start →
      program.watched trap fuel active ⟨param, captures⟩ m input start =
        program.matcher fuel ⟨param, captures⟩ m input start

/-- The items of a sequence, one after the other. -/
theorem sequence_watched (hadvances : program.AdvancesIn forward input)
    (h : program.Unsprung forward level rank trap fuel) {items : List Matcher}
    (hitems : ∀ item ∈ items, program.Contains item ∧ item.Fits param emptyParam)
    (captures : List Capture) (start : Nat)
    (hclear : program.Clear level rank active (aheadOfAll program forward emptyParam items) input
      start) :
    Combinator.sequence (items.map fun item captures input start =>
      Run.andThen (program.watched trap fuel active ⟨param, captures⟩ item input start)
        fun value stop => .done (.success ⟨value, ⟨start, stop⟩⟩ stop)) captures input start =
    Combinator.sequence (items.map fun item captures input start =>
      Run.andThen (program.matcher fuel ⟨param, captures⟩ item input start)
        fun value stop => .done (.success ⟨value, ⟨start, stop⟩⟩ stop)) captures input start := by
  induction items generalizing captures start with
  | nil => rfl
  | cons item items ih =>
    obtain ⟨hcontains, hfits⟩ := hitems item (List.mem_cons_self ..)
    have hrest := ih fun item hmem => hitems item (List.mem_cons_of_mem _ hmem)
    simp only [List.map_cons, Combinator.sequence]
    rw [h hcontains hfits captures input start hclear.head]
    -- what is ahead of the others depends on where the item may have stopped
    by_cases hadvance : item.advances forward = true
    · have hprogress := advances_progress hadvances fuel hcontains hadvance hfits captures start
      refine Run.Ensures.andThen_congr (Q := fun _ => True)
        (P := fun _ stop => Progress input start (item.isNullable program.nullable emptyParam) stop)
        (hprogress.andThen fun _ _ hstop => hstop) fun capture stop hstop => ?_
      exact hrest _ stop (hclear.tail hadvance hstop)
    · refine (Run.Ensures.any _).andThen_congr fun capture stop _ => ?_
      exact hrest _ stop (hclear.tail_behind hadvance stop)

/-- A rule that is not active yet. -/
theorem watchRule_eq (emptyParam : Bool) (hadvances : program.AdvancesIn forward input)
    (h : program.Unsprung forward level rank trap fuel) {id : Nat} {rule : CompiledRule}
    (hrule : program.rules[id]? = some rule)
    (hnew : (⟨id, param.getD "", input, start⟩ : Invocation) ∉ active)
    (hfits : ∀ alternative ∈ rule.alternatives, ∀ item ∈ alternative.items,
      item.Fits param emptyParam)
    (hclear : ∀ alternative ∈ rule.alternatives,
      program.Clear level rank (⟨id, param.getD "", input, start⟩ :: active)
        (aheadOfAll program forward emptyParam alternative.items) input start) :
    program.watchRule trap (program.watched trap fuel) active id param input start =
      program.matchRule (program.matcher fuel) id param input start := by
  rw [watchRule, if_neg hnew]
  refine matchRule_congr hrule fun alternative halternative => ?_
  refine sequence_watched hadvances h (fun item hitem => ?_) [] start
    (hclear alternative halternative)
  exact ⟨.ofItem hrule halternative hitem, hfits alternative halternative item hitem⟩

/-- A rule that is called by a matcher which is clear of what is active. -/
theorem calledRule_watched (hadvances : program.AdvancesIn forward input)
    (hstratified : program.Stratified forward level) (hranked : program.Ranked rank)
    (h : program.Unsprung forward level rank trap fuel) {id : Nat} {rule : CompiledRule}
    (hrule : program.rules[id]? = some rule)
    (hinstance : param.getD "" = "" → ∀ part ∈ rule.parts, part.isParam = true →
      program.hasEmptyInstance id = true)
    (hclear : program.Clear level rank active (.call id) input start) :
    program.watchRule trap (program.watched trap fuel) active id param input start =
      program.matchRule (program.matcher fuel) id param input start := by
  have hid : id < program.rules.length := (List.getElem?_eq_some_iff.1 hrule).1
  refine watchRule_eq (program.hasEmptyInstance id) hadvances h hrule ?_ ?_ ?_
  · intro hactive
    refine (hclear _ hactive).ne hid ?_ rfl
    intro hempty rule' hrule'
    obtain rfl : rule = rule' := Option.some.inj (hrule.symm.trans hrule')
    exact hinstance hempty
  · intro alternative halternative item hitem part hpart hisParam hempty
    exact hinstance hempty part (mem_parts_of_item halternative hitem hpart) hisParam
  · intro alternative halternative invocation hinvocation
    rcases List.mem_cons.1 hinvocation with rfl | hactive
    · exact .entered hstratified hranked hrule halternative _
    · exact .enter hstratified hranked hrule halternative (hclear invocation hactive)

/-- The attempts of a repetition are ahead of each other if they advance, and behind if not. -/
theorem repeated_watched (hadvances : program.AdvancesIn forward input)
    (h : program.Unsprung forward level rank trap fuel) {inner : Matcher}
    (hcontains : program.Contains inner) (hfits : inner.Fits param emptyParam)
    (captures : List Capture)
    (hclear : program.Clear level rank active ⟨inner.calls,
      if inner.advances forward then inner.callsBehind forward else inner.calls,
      inner.leftCalls program.nullable emptyParam⟩ input start) :
    ∃ I : Nat → Prop, I start ∧
      (∀ start, I start → program.watched trap fuel active ⟨param, captures⟩ inner input start =
        program.matcher fuel ⟨param, captures⟩ inner input start) ∧
      ∀ start, I start → (program.matcher fuel ⟨param, captures⟩ inner input start).Ensures
        (fun _ stop => I stop) fun _ => True := by
  by_cases hadvance : inner.advances forward = true
  · rw [if_pos hadvance] at hclear
    refine ⟨fun start => program.Clear level rank active (inner.ahead program forward emptyParam)
      input start, hclear, fun start hstart => h hcontains hfits captures input start hstart, ?_⟩
    intro start hstart
    have hprogress := advances_progress hadvances fuel hcontains hadvance hfits captures start
    refine hprogress.mono (fun _ stop hstop => ?_) fun _ _ => trivial
    exact hstart.progress hstop (List.Subset.refl _) (List.Subset.refl _)
      fun _ => List.Subset.refl _
  · -- any offset is clear of calls that are all behind, so no invariant is needed
    rw [if_neg hadvance] at hclear
    refine ⟨fun _ => True, trivial, fun start _ => h hcontains hfits captures input start ?_,
      fun start _ => .any _⟩
    refine hclear.behind ?_ ?_ input start
    · exact List.Subset.refl inner.calls
    · exact List.Subset.refl inner.calls

/-- In a stratified program without left recursion no matcher springs a trap. -/
theorem watched_eq (hexternal : program.Every fun m => m.isExternal = false)
    (hadvances : ∀ input, program.AdvancesIn forward input)
    (hstratified : program.Stratified forward level) (hranked : program.Ranked rank)
    (trap : Run Value) (fuel : Nat) : program.Unsprung forward level rank trap fuel := by
  induction fuel with
  | zero =>
    intro active m param emptyParam _ _ captures input start _
    rfl
  | succ fuel ih =>
    intro active m param emptyParam hm hfits captures input start hclear
    have hresolved := (hm.every (hadvances input).resolved).self
    cases m with
    | literal string => rfl
    | regex expression description => rfl
    | any => rfl
    | param => rfl
    | «variable» index => rfl
    | rule id =>
      obtain ⟨rule, hrule, hparam⟩ := hresolved
      refine calledRule_watched (hadvances input) hstratified hranked ih hrule ?_ hclear
      -- a rule that is called by its name does not look at a parameter
      intro _ part hpart hisParam
      rw [hparam part hpart] at hisParam
      cases hisParam
    | template id argument =>
      refine calledRule_watched (hadvances input) hstratified hranked ih
        (List.getElem?_eq_getElem hresolved) ?_ hclear
      -- an instance with the empty literal is one that the check has seen
      intro hempty part _ _
      obtain ⟨caller, hcaller, hsublist⟩ := hm
      obtain rfl : argument = "" := hempty
      exact hasEmptyInstance_of_mem hcaller (hsublist.subset (List.mem_singleton_self _))
    | negative inner =>
      have hinner := ih (hm.ofBody rfl) hfits.negative captures input start hclear
      show (Combinator.negative (program.watched trap fuel active ⟨param, captures⟩ inner) input
        start).mapValue Value.str = _
      rw [Combinator.negative, hinner]
      rfl
    | look inner =>
      have hinner := ih (hm.ofBody rfl) hfits.look captures input start hclear
      show Combinator.look (program.watched trap fuel active ⟨param, captures⟩ inner) input start = _
      rw [Combinator.look, hinner]
      rfl
    | attempt inner =>
      have hinner := ih (hm.ofBody rfl) hfits.attempt captures input start hclear
      show Combinator.attempt (program.watched trap fuel active ⟨param, captures⟩ inner) input
        start = _
      rw [Combinator.attempt, hinner]
      rfl
    | backtrack inner =>
      -- the body is behind, whatever the text before the start is
      have hinner : program.watched trap fuel active ⟨param, captures⟩ inner =
          program.matcher fuel ⟨param, captures⟩ inner := by
        funext input' start'
        apply ih (hm.ofBody rfl) hfits.backtrack
        refine hclear.behind ?_ ?_ input' start'
        · exact List.Subset.refl inner.calls
        · exact List.Subset.refl inner.calls
      show Combinator.backtrack (program.watched trap fuel active ⟨param, captures⟩ inner) input
        start = _
      rw [hinner]
      rfl
    | external name transformer inner => cases (hm.every hexternal).self
    | group items important =>
      have hitems := sequence_watched (hadvances input) ih
        (fun item hitem => ⟨hm.ofMember hitem, hfits.group item hitem⟩) [] start hclear
      exact congrArg (Run.mapValue (groupValue important)) hitems
    | repeated inner repetition =>
      have hcontains : program.Contains inner := hm.ofBody rfl
      cases repetition with
      | optional =>
        have hinner := ih hcontains hfits.repeated captures input start hclear
        show (Combinator.optional (program.watched trap fuel active ⟨param, captures⟩ inner) input
          start).mapValue Value.ofOption = _
        rw [Combinator.optional, hinner]
        rfl
      | any =>
        obtain ⟨I, hstart, hbody, hstops⟩ := repeated_watched (hadvances input) ih hcontains
          hfits.repeated captures hclear
        exact congrArg (Run.mapValue Value.list)
          (Combinator.many_congr hbody hstops hstart fuel)
      | oneOrMore =>
        obtain ⟨I, hstart, hbody, hstops⟩ := repeated_watched (hadvances input) ih hcontains
          hfits.repeated captures hclear
        exact congrArg (Run.mapValue Value.list)
          (Combinator.many1_congr hbody hstops hstart fuel)

/-- A rule that is run on its own is kept apart by its rank like any other, unless it is a template
whose parameter no call gives. -/
theorem Stratified.neverReenters (hstratified : program.Stratified forward level)
    (hexternal : program.Every fun m => m.isExternal = false) (hregex : program.DetectsEmpty)
    (hresolved : program.Every (Matcher.IsResolved program)) (hranked : program.Ranked rank) :
    program.NeverReenters := by
  intro trap fuel id param input start
  have hadvances : ∀ input, program.AdvancesIn forward input := fun input =>
    ⟨hstratified.advances, hregex.detectsEmptyIn input, hresolved⟩
  have hwatched : program.Unsprung forward level rank trap fuel :=
    watched_eq hexternal hadvances hstratified hranked trap fuel
  rcases hrule : program.rules[id]? with - | rule
  · rw [watchedCall, watchRule, if_neg List.not_mem_nil, matchRule, hrule, call, matchRule, hrule]
  · by_cases hforeign : param.getD "" = "" ∧ program.hasEmptyInstance id = false ∧
        ∃ part ∈ rule.parts, part.isParam = true
    · -- the ranks do not count with such a parameter, but nothing calls the rule with it
      obtain ⟨hempty, hinstance, part, hpart, hisParam⟩ := hforeign
      refine watchRule_eq true (hadvances input) hwatched hrule List.not_mem_nil ?_ ?_
      · intro alternative halternative item hitem part hpart hisParam hempty
        rfl
      · intro alternative halternative invocation hinvocation
        obtain rfl := List.mem_singleton.1 hinvocation
        exact .foreign hempty hinstance hrule hpart hisParam
    · -- at the beginning no rule is active
      have hnone : program.Clear level rank [] (.call id) input start := by
        intro invocation hactive
        cases hactive
      refine calledRule_watched (hadvances input) hstratified hranked hwatched hrule ?_ hnone
      intro hempty part hpart hisParam
      by_contra hinstance
      exact hforeign ⟨hempty, Bool.eq_false_iff.2 hinstance, part, hpart, hisParam⟩

end Program

end

/-- What the check for left recursion promises: in an accepted program no rule is entered while it
is active with the same parameter at the same place.  It keeps the promise for programs that are
stratified, and so for all those without backward matchers. -/
theorem Grammar.compile_never_reenters {grammar : Grammar} {options : CompileOptions}
    {program : Program} (hcompile : grammar.compile options = .ok program)
    (hexternal : program.Every fun m => m.isExternal = false) (hregex : program.DetectsEmpty)
    (hchecked : program.checkLeftRecursion program.nullable = .ok ()) :
    (program.IsStratified → program.NeverReenters) ∧
      ((program.Every fun m => m.isBacktrack = false) → program.NeverReenters) := by
  obtain ⟨rank, hranked⟩ := Program.exists_ranked hchecked
  have hresolved := (Grammar.wellScoped_compile hcompile).resolved
  have hpromise : program.IsStratified → program.NeverReenters := by
    rintro ⟨forward, level, hstratified⟩
    exact hstratified.neverReenters hexternal hregex hresolved hranked
  exact ⟨hpromise, fun hbacktrack =>
    hpromise (Program.isStratified_of_every hbacktrack hexternal)⟩

/-! ### Kept and broken -/

namespace Nested

/-- Parentheses around a letter that is read, read backward and read again, and one more. -/
def grammar : Grammar :=
  { rules := [
      ⟨.simple "list", none, [
        ⟨[⟨.literal "(" {}, none, {}⟩, ⟨.name "list" {}, none, {}⟩, ⟨.literal ")" {}, none, {}⟩],
          none, {}⟩,
        ⟨[⟨.name "twice" {}, none, {}⟩], none, {}⟩], {}⟩,
      ⟨.simple "twice", none, [⟨[⟨.name "letter" {}, none, {}⟩,
        ⟨.apply "backtrack" (.name "letter" {}) {}, none, {}⟩,
        ⟨.name "letter" {}, some .oneOrMore, {}⟩], none, {}⟩], {}⟩,
      ⟨.simple "letter", none, [⟨[⟨.literal "x" {}, none, {}⟩], none, {}⟩], {}⟩] }

def program : Program :=
  ⟨[⟨.simple "list", false,
      [⟨[.literal "(", .rule 0, .literal ")"], none⟩, ⟨[.rule 1], none⟩], {}⟩,
    ⟨.simple "twice", false,
      [⟨[.rule 2, .backtrack (.rule 2), .repeated (.rule 2) .oneOrMore], none⟩], {}⟩,
    ⟨.simple "letter", false, [⟨[.literal "x"], none⟩], {}⟩]⟩

/-- Only letters are called behind, and they call nothing. -/
theorem program_isStratified : program.IsStratified := by
  refine ⟨fun id => id == 2, fun id => if id = 2 then 0 else 1, ?_, ?_, ?_⟩
  all_goals
    rintro (_ | _ | _ | id) rule hrule
    · obtain rfl := Option.some.inj hrule
      decide
    · obtain rfl := Option.some.inj hrule
      decide
    · obtain rfl := Option.some.inj hrule
      decide
    · cases hrule

theorem parentheses_kept : grammar.compile {} = .ok program ∧
    (program.Every fun m => m.isExternal = false) ∧ program.DetectsEmpty ∧
    program.checkLeftRecursion program.nullable = .ok () ∧ program.IsStratified ∧
    program.NeverReenters ∧
    ((program.call 9 0 none "(xx)".toList 0).outcome?.map fun
      | .success _ stop => stop
      | _ => 0) = some 4 := by
  have hcompile : grammar.compile {} = .ok program := rfl
  have hexternal : program.Every fun m => m.isExternal = false := by decide
  have hregex : program.DetectsEmpty := Program.detectsEmpty_of_looksBack (by decide)
  have hchecked : program.checkLeftRecursion program.nullable = .ok () := rfl
  exact ⟨hcompile, hexternal, hregex, hchecked, program_isStratified,
    (Grammar.compile_never_reenters hcompile hexternal hregex hchecked).1 program_isStratified, rfl⟩

end Nested

namespace Mirrored

/-- A rule that starts with itself, backward. -/
def grammar : Grammar :=
  { rules := [⟨.simple "a", none,
      [⟨[⟨.apply "backtrack" (.name "a" {}) {}, none, {}⟩], none, {}⟩], {}⟩] }

def program : Program :=
  ⟨[⟨.simple "a", false, [⟨[.backtrack (.rule 0)], none⟩], {}⟩]⟩

theorem call_eq_none : ∀ fuel, program.call fuel 0 none [] 0 = none
  | 0 | 1 => rfl
  | fuel + 2 => by
    have hagain : program.matcher (fuel + 1) ⟨none, []⟩ (.rule 0) [] 0 = none := call_eq_none fuel
    -- the text before the beginning is empty, and so is that text the other way round
    have hmirror : program.matcher (fuel + 2) ⟨none, []⟩ (.backtrack (.rule 0)) [] 0 = none := by
      rw [Program.matcher, Combinator.backtrack, Text.takeBytes?_zero]
      dsimp only [List.reverse_nil]
      rw [hagain]
      rfl
    have hchoice : Combinator.choice (program.rules[0].alternatives.map fun alternative =>
        Program.matchAlternative (program.matcher (fuel + 2)) alternative none) [] 0 = none := by
      show Program.matchAlternative (program.matcher (fuel + 2)) ⟨[.backtrack (.rule 0)], none⟩ none
        [] 0 = none
      rw [Program.matchAlternative, Program.matchItems, List.map_cons, Combinator.sequence, hmirror]
      rfl
    have hrule : program.rules[0]? = some program.rules[0] := rfl
    rw [Program.call, Program.matchRule, hrule]
    dsimp only
    rw [hchoice]

/-- The check accepts the rule.  At the beginning of a text it enters itself at once, since what is
before the beginning is the empty text on both sides, and its run never ends. -/
theorem mirror_reenters : grammar.compile {} = .ok program ∧
    (program.Every fun m => m.isExternal = false) ∧ program.DetectsEmpty ∧
    program.checkLeftRecursion program.nullable = .ok () ∧
    (∀ fuel, program.call fuel 0 none [] 0 = none) ∧ ¬program.NeverReenters := by
  refine ⟨rfl, by decide, Program.detectsEmpty_of_looksBack (by decide), rfl, call_eq_none, ?_⟩
  intro hnever
  have hsprung : program.watchedCall (.done (.fault (.missingRule 0))) 2 0 none [] 0 =
      some ([.entered 0 none [] 0], .fault (.missingRule 0)) := rfl
  have hrun : program.call 2 0 none [] 0 = none := rfl
  have hsame := hnever (.done (.fault (.missingRule 0))) 2 0 none [] 0
  rw [hsprung, hrun] at hsame
  cases hsame

end Mirrored

end Peg
