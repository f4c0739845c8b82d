/-
Peg/Proofs/Program/Stalled.lean

Repetitions that stop at a match of nothing.

A repetition stalls when an attempt succeeds without reading anything, and the
compiler warns of repetitions whose bodies are nullable.  `Program.alarmed` is
the interpreter with a trap: a repetition that stalls without a warning springs
it.  No stall goes without a warning if

    alarmed warned trap fuel id scope m input start = matcher fuel scope m input start

for every trap, and it holds as soon as `warned` covers what may stall for the
literals that a rule can be given (`alarmed_eq`).  An attempt is a run of the
body, so it makes progress, and a success that stays means that the body is
nullable for this kind of literal.  The kind is that of some instance in the
program, since only instances give literals.  That no stall escapes the trap is
told by the events: a run with a trap and without warnings records none
(`alarmed_unstalled`).

The warnings of the compiler do not cover the empty literal: they take the
parameter for one that reads something.  A repetition of the parameter stalls
unseen where its template is instantiated with the empty literal.  These are
the hidden ones, and there are no others (`Grammar.compile_warns`).
-/
import Peg.Proofs.Program.Course
import Peg.Proofs.Program.Foreseen
import Peg.Proofs.Program.LeftCalls
import Peg.Proofs.Run.Unstalled

namespace Peg

/-! ### Repetitions that may stall -/

namespace Matcher

/-- A repetition whose attempts may read nothing, for one kind of literal. -/
def mayStall (nullable : Nullable) (emptyParam : Bool) : Matcher → Bool
  | .repeated inner .any | .repeated inner .oneOrMore => inner.isNullable nullable emptyParam
  | _ => false

/-- The compiler warns of those that may stall when the literal is not empty. -/
theorem mayStall_false (nullable : Nullable) (m : Matcher) :
    m.mayStall nullable false = m.isNullableRepetition nullable := by
  cases m with
  | repeated inner repetition => cases repetition <;> rfl
  | _ => rfl

end Matcher

namespace Program

/-! ### The interpreter -/

/-- The meaning of a matcher in a rule, with a trap for repetitions that stall without warning. -/
def alarmed (program : Program) (warned : Nat → Matcher → Bool) (trap : Run (List Value)) :
    (fuel id : Nat) → Step
  | 0, _, _, _, _, _ => none
  | fuel + 1, id, scope, m, input, start =>
    let step := alarmed program warned trap fuel id
    let stalled := fun start => if warned id m then Combinator.stall start else trap
    let text := fun (outcome : Outcome String) => Run.primitive (outcome.map Value.str)
    match m with
    | .literal string => text (Primitive.literal string input start)
    | .regex expression description => text (Primitive.regex expression description input start)
    | .any => text (Primitive.anyChar input start)
    | .param => text (Primitive.literal (scope.param.getD "") input start)
    | .variable index => text (Primitive.literal (scope.textOf index) input start)
    | .rule called =>
      program.matchRule (alarmed program warned trap fuel called) called none input start
    | .template called argument =>
      program.matchRule (alarmed program warned trap fuel called) called (some argument) input start
    | .negative inner => (Combinator.negative (step scope inner) input start).mapValue .str
    | .look inner => Combinator.look (step scope inner) input start
    | .attempt inner => Combinator.attempt (step scope inner) input start
    | .backtrack inner => Combinator.backtrack (step scope inner) input start
    | .external _ (some transformer) inner => transformer (step scope inner) input start
    | .external name none _ => .done (.failure ⟨"<" ++ name ++ ">", start⟩)
    | .group items important =>
      (matchItems step items scope.param input start).mapValue (groupValue important)
    | .repeated inner .optional =>
      (Combinator.optional (step scope inner) input start).mapValue Value.ofOption
    | .repeated inner .any =>
      (Combinator.manyOr stalled fuel (step scope inner) input start).mapValue .list
    | .repeated inner .oneOrMore =>
      (Combinator.many1Or stalled fuel (step scope inner) input start).mapValue .list

/-- A rule that is run with the trap, with a literal for its parameter and so much fuel. -/
abbrev alarmedCall (program : Program) (warned : Nat → Matcher → Bool) (trap : Run (List Value))
    (fuel id : Nat) (param : Option String) : Matching Value :=
  program.matchRule (program.alarmed warned trap fuel id) id param

variable {program : Program} {warned : Nat → Matcher → Bool} {trap : Run (List Value)}
variable {fuel id : Nat} {rule : CompiledRule} {param : Option String}

/-! ### The trap is everywhere -/

theorem matchItems_unstalled {step : Step} {items : List Matcher}
    (h : ∀ item ∈ items, ∀ captures, (step ⟨param, captures⟩ item).Unstalled) :
    (matchItems step items param).Unstalled := by
  refine Combinator.sequence_unstalled (fun matching hmatching captures input start => ?_) []
  obtain ⟨item, hitem, rfl⟩ := List.mem_map.1 hmatching
  exact (h item hitem captures input start).andThen fun _ _ => .done _

theorem matchRule_unstalled {step : Step}
    (h : ∀ rule, program.rules[id]? = some rule → ∀ alternative ∈ rule.alternatives,
      ∀ item ∈ alternative.items, ∀ captures, (step ⟨param, captures⟩ item).Unstalled) :
    (program.matchRule step id param).Unstalled := by
  intro input start
  rw [matchRule]
  split
  · exact .done _
  · rename_i rule hrule
    have hchoice : (Combinator.choice (rule.alternatives.map fun alternative =>
        matchAlternative step alternative param) input start).Unstalled := by
      refine Combinator.choice_unstalled (fun matching hmatching input start => ?_) input start
      obtain ⟨alternative, halternative, rfl⟩ := List.mem_map.1 hmatching
      exact (matchItems_unstalled (h rule hrule alternative halternative) input start).andThen
        fun _ _ => .done _
    split
    · trivial
    · rename_i events outcome hrun
      rw [hrun] at hchoice
      -- a rule is entered and left, and neither is a stall
      have hleaving : ∀ outcome : Outcome Value, ∀ offset,
          Event.stalled offset ∉ leaving id outcome := by
        intro outcome offset
        cases outcome <;> simp [leaving]
      intro offset hmem
      rcases List.mem_cons.1 hmem with hentered | hmem
      · cases hentered
      · exact (List.mem_append.1 hmem).elim (hchoice offset) (hleaving _ offset)

/-- Without warnings every repetition that is cut short springs the trap. -/
theorem alarmed_unstalled (hexternal : program.Every fun m => m.isExternal = false)
    (htrap : trap.Unstalled) (fuel id : Nat) (scope : Scope) {m : Matcher}
    (hm : m.Every fun m => m.isExternal = false) :
    (program.alarmed (fun _ _ => false) trap fuel id scope m).Unstalled := by
  induction fuel generalizing id scope m with
  | zero => exact fun _ _ => trivial
  | succ fuel ih =>
    have hrule : ∀ called param, (program.matchRule
        (program.alarmed (fun _ _ => false) trap fuel called) called param).Unstalled :=
      fun called param => matchRule_unstalled fun _ hrule _ halternative _ hitem _ =>
        ih called _ (hexternal.ofItem hrule halternative hitem)
    intro input start
    -- nothing but a repetition records a stall, and in its place there is the trap
    cases m with
    | literal string => exact .primitive _
    | regex expression description => exact .primitive _
    | any => exact .primitive _
    | rule called => exact hrule called none input start
    | param => exact .primitive _
    | «variable» index => exact .primitive _
    | template called argument => exact hrule called (some argument) input start
    | negative inner =>
      exact (Combinator.negative_unstalled (ih id scope hm.negative) input start).mapValue _
    | look inner => exact Combinator.look_unstalled (ih id scope hm.look) input start
    | attempt inner => exact Combinator.attempt_unstalled (ih id scope hm.attempt) input start
    | backtrack inner => exact Combinator.backtrack_unstalled (ih id scope hm.backtrack) input start
    | external name transformer inner => cases hm.self
    | group items important =>
      exact (matchItems_unstalled (fun item hitem captures => ih id _ (hm.group item hitem)) input
        start).mapValue _
    | repeated inner repetition =>
      have hinner := ih id scope hm.repeated
      cases repetition with
      | optional => exact (Combinator.optional_unstalled hinner input start).mapValue _
      | any =>
        exact (Combinator.manyOr_unstalled hinner (fun _ => htrap) fuel input start).mapValue _
      | oneOrMore =>
        exact (Combinator.many1Or_unstalled hinner (fun _ => htrap) fuel input start).mapValue _

/-! ### Where it is not sprung -/

/-- The repetitions of a rule that may stall for a literal it can be given are warned about. -/
def CoversStalls (program : Program) (warned : Nat → Matcher → Bool) : Prop :=
  ∀ id rule, program.rules[id]? = some rule → ∀ m ∈ rule.parts, ∀ emptyParam : Bool,
    (emptyParam = true → program.hasEmptyInstance id = true) →
      m.mayStall program.nullable emptyParam = true → warned id m = true

/-- A rule is given the empty literal only if it is instantiated with it. -/
def Instantiates (program : Program) (id : Nat) (param : Option String) : Prop :=
  ∀ rule, program.rules[id]? = some rule → rule.givenEmpty param = true →
    program.hasEmptyInstance id = true

theorem instantiates_of_simple
    (hsimple : ∀ rule, program.rules[id]? = some rule → rule.head.isTemplate = false) :
    program.Instantiates id none := by
  intro rule hrule hempty
  rw [CompiledRule.givenEmpty_of_simple (hsimple rule hrule)] at hempty
  cases hempty

theorem instantiates_rule (h : program.WellScoped) (hrule : rule ∈ program.rules) {called : Nat}
    (hpart : .rule called ∈ rule.parts) : program.Instantiates called none := by
  refine instantiates_of_simple fun other hother => ?_
  obtain ⟨bound, hscoped⟩ := h.part hrule hpart
  obtain ⟨head, hhead, hsimple⟩ := hscoped
  rw [heads, List.getElem?_map, hother] at hhead
  obtain rfl := Option.some.inj hhead
  exact hsimple

theorem instantiates_template (hrule : rule ∈ program.rules) {called : Nat} {argument : String}
    (hpart : .template called argument ∈ rule.parts) :
    program.Instantiates called (some argument) := by
  intro other _ hempty
  rw [CompiledRule.givenEmpty, Option.getD_some, Bool.and_eq_true, String.isEmpty_iff] at hempty
  obtain ⟨-, rfl⟩ := hempty
  exact hasEmptyInstance_of_mem hrule hpart

/-- The trap makes no difference with so much fuel. -/
def IgnoresTrap (program : Program) (warned : Nat → Matcher → Bool) (trap : Run (List Value))
    (fuel : Nat) : Prop :=
  ∀ {id : Nat} {rule : CompiledRule} {m : Matcher} {param : Option String}
    {captures : List Capture}, program.rules[id]? = some rule → m ∈ rule.parts →
    program.Instantiates id param →
    program.alarmed warned trap fuel id ⟨param, captures⟩ m =
      program.matcher fuel ⟨param, captures⟩ m

theorem matchRule_alarmed (ih : program.IgnoresTrap warned trap fuel)
    (hgiven : program.Instantiates id param) :
    program.alarmedCall warned trap fuel id param = program.call fuel id param := by
  funext input start
  rcases hrule : program.rules[id]? with - | rule
  · simp only [alarmedCall, call, matchRule, hrule]
  · refine matchRule_congr hrule fun alternative halternative => ?_
    rw [matchItems_ext fun item hitem captures => ?_]
    exact ih hrule (mem_parts_of_item halternative hitem item.mem_parts_self) hgiven

/-- An attempt that reads nothing has a body that is nullable, so the repetition is warned about. -/
theorem stalled_eq_stall (hscoped : program.WellScoped) {input : List Char}
    (hforward : program.IsForwardIn input) (hcovers : program.CoversStalls warned)
    (hrule : program.rules[id]? = some rule) {inner : Matcher} {repetition : Repetition}
    (hpart : .repeated inner repetition ∈ rule.parts)
    (hmode : repetition ≠ .optional) (hgiven : program.Instantiates id param)
    {captures : List Capture} (start : Nat) (events : List Event) (value : Value)
    (hrun : program.matcher fuel ⟨param, captures⟩ inner input start =
      some (events, .success value start)) :
    (if warned id (.repeated inner repetition) then Combinator.stall start else trap) =
      Combinator.stall start := by
  have hmem := List.mem_of_getElem? hrule
  have hinner : inner ∈ rule.parts :=
    (rule.parts_sublist hpart).subset (List.mem_cons_of_mem _ inner.mem_parts_self)
  have hprogress := hforward.progress fuel (.ofRule hmem hinner)
    (hscoped.fits hmem hinner param) captures start
  -- an attempt that stays has a body that is nullable here, which is what is warned about
  have hnullable : inner.isNullable program.nullable (rule.givenEmpty param) = true :=
    (hprogress.success hrun).nullable_of_stays
  have hstall : (Matcher.repeated inner repetition).mayStall program.nullable
      (rule.givenEmpty param) = true := by
    cases repetition with
    | optional => exact absurd rfl hmode
    | any => exact hnullable
    | oneOrMore => exact hnullable
  rw [if_pos (hcovers id rule hrule _ hpart _ (hgiven rule hrule) hstall)]

/-- Where the warnings cover what may stall, the trap is never sprung. -/
theorem alarmed_eq (hscoped : program.WellScoped)
    (hforward : ∀ input, program.IsForwardIn input) (hcovers : program.CoversStalls warned)
    (trap : Run (List Value)) (fuel : Nat) : program.IgnoresTrap warned trap fuel := by
  induction fuel with
  | zero => exact fun _ _ _ => rfl
  | succ fuel ih =>
    intro id rule m param captures hrule hpart hgiven
    have hmem := List.mem_of_getElem? hrule
    have hsub := fun {part : Matcher} (h : part ∈ m.parts) => (rule.parts_sublist hpart).subset h
    have hinner : ∀ inner : Matcher, m.parts = m :: inner.parts →
        program.alarmed warned trap fuel id ⟨param, captures⟩ inner =
          program.matcher fuel ⟨param, captures⟩ inner := by
      intro inner hparts
      refine ih hrule (hsub ?_) hgiven
      rw [hparts]
      exact List.mem_cons_of_mem _ inner.mem_parts_self
    funext input start
    -- only the two repetitions differ, and by what is foreseen neither is trapped
    cases m with
    | literal string => rfl
    | regex expression description => rfl
    | any => rfl
    | rule called =>
      exact congrFun (congrFun (matchRule_alarmed ih (instantiates_rule hscoped hmem hpart)) input)
        start
    | param => rfl
    | «variable» index => rfl
    | template called argument =>
      exact congrFun (congrFun (matchRule_alarmed ih (instantiates_template hmem hpart)) input) start
    | negative inner => simp only [alarmed, matcher, hinner inner rfl]
    | look inner => simp only [alarmed, matcher, hinner inner rfl]
    | attempt inner => simp only [alarmed, matcher, hinner inner rfl]
    | backtrack inner => simp only [alarmed, matcher, hinner inner rfl]
    | external name transformer inner =>
      cases transformer with
      | none => rfl
      | some transformer => simp only [alarmed, matcher, hinner inner rfl]
    | group items important =>
      have hitems : matchItems (program.alarmed warned trap fuel id) items param =
          matchItems (program.matcher fuel) items param :=
        matchItems_ext fun item hitem captures => ih hrule
          (hsub (List.mem_cons_of_mem _ (mem_partsOfAll.2 ⟨item, hitem, item.mem_parts_self⟩))) hgiven
      exact congrArg (Run.mapValue _) (congrFun (congrFun hitems input) start)
    | repeated inner repetition =>
      cases repetition with
      | optional => simp only [alarmed, matcher, hinner inner rfl]
      | any =>
        simp only [alarmed, matcher, hinner inner rfl]
        rw [Combinator.manyOr_eq
          (stalled_eq_stall hscoped (hforward input) hcovers hrule hpart (by decide) hgiven)]
      | oneOrMore =>
        simp only [alarmed, matcher, hinner inner rfl]
        rw [Combinator.many1Or_eq
          (stalled_eq_stall hscoped (hforward input) hcovers hrule hpart (by decide) hgiven)]

theorem alarmedCall_eq (hscoped : program.WellScoped)
    (hforward : ∀ input, program.IsForwardIn input) (hcovers : program.CoversStalls warned)
    (trap : Run (List Value)) (fuel : Nat) (hrule : program.rules[id]? = some rule)
    (hsimple : rule.head.isTemplate = false) :
    program.alarmedCall warned trap fuel id none = program.call fuel id none := by
  refine matchRule_alarmed (alarmed_eq hscoped hforward hcovers trap fuel) ?_
  refine instantiates_of_simple fun other hother => ?_
  obtain rfl := Option.some.inj (hrule.symm.trans hother)
  exact hsimple

/-! ### Hidden repetitions -/

/-- A repetition that may stall only for the empty literal, in a rule that is given it. -/
def isHidden (program : Program) (id : Nat) (m : Matcher) : Bool :=
  program.hasEmptyInstance id && m.mayStall program.nullable true &&
    !m.isNullableRepetition program.nullable

/-- What may stall is warned about or hidden. -/
theorem coversStalls_of_hidden
    (h : ∀ id rule, program.rules[id]? = some rule → ∀ m ∈ rule.parts,
      (m.isNullableRepetition program.nullable || program.isHidden id m) = true →
        warned id m = true) :
    program.CoversStalls warned := by
  intro id rule hrule m hm emptyParam hempty hstall
  apply h id rule hrule m hm
  rcases hwarned : m.isNullableRepetition program.nullable with - | -
  · cases emptyParam with
    | false =>
      rw [Matcher.mayStall_false, hwarned] at hstall
      cases hstall
    | true => rw [isHidden, hempty rfl, hstall, hwarned]; rfl
  · rfl

end Program

/-! ### Warnings -/

/-- The rule that an entry of the log warns of. -/
def LogEntry.warning? : LogEntry → Option String
  | .nullableRepetition rule => some rule
  | .compiledRule _ _ | .compiledGrammar _ _ => none

/-- Resolving rules warns of nothing. -/
theorem Resolver.warnings_resolveRules (resolver : Resolver) (rules : List Rule) :
    (resolver.resolveRules rules).1.filterMap LogEntry.warning? = [] := by
  induction rules with
  | nil => rfl
  | cons rule rules ih =>
    rw [resolveRules]
    rcases resolver.resolveRule rule with error | compiled
    · rfl
    · exact ih

namespace Grammar

variable {grammar : Grammar} {options : CompileOptions} {log : List LogEntry} {program : Program}

/-- The last step of a compilation warns of the repetitions that may read nothing. -/
theorem warnings_finishCompilation (program : Program) :
    (grammar.finishCompilation options program).1.filterMap LogEntry.warning? =
      program.nullableRepetitions program.nullable := by
  have hwarnings : ∀ names : List String,
      (names.map LogEntry.nullableRepetition).filterMap LogEntry.warning? = names := by
    intro names
    rw [List.filterMap_map]
    exact List.filterMap_some
  rw [finishCompilation]
  split
  · exact hwarnings _
  · rw [List.filterMap_append, hwarnings]
    exact List.append_nil _

/-- An accepted program is the one that the last step was given. -/
theorem finishCompilation_eq_ok {given : Program}
    (h : (grammar.finishCompilation options given).2 = .ok program) : given = program := by
  rw [finishCompilation] at h
  split at h
  · cases h
  · exact Except.ok.inj h

/-- What is warned of in the log of an accepted grammar. -/
theorem warnings_compileWithLog (h : grammar.compileWithLog options = (log, .ok program)) :
    log.filterMap LogEntry.warning? = program.nullableRepetitions program.nullable := by
  unfold compileWithLog at h
  split at h
  · cases h
  · have hnone := Resolver.warnings_resolveRules ⟨grammar, options⟩ grammar.rules
    split at h
    · cases h
    · rename_i resolved rules hresolved
      rw [hresolved] at hnone
      have hlog : resolved ++ (grammar.finishCompilation options ⟨rules⟩).1 = log :=
        congrArg Prod.fst h
      have hok : (grammar.finishCompilation options ⟨rules⟩).2 = .ok program :=
        congrArg Prod.snd h
      rw [← hlog, List.filterMap_append, hnone, List.nil_append, warnings_finishCompilation,
        finishCompilation_eq_ok hok]

/-- Without warnings nothing is a nullable repetition. -/
theorem isNullableRepetition_of_no_warning
    (h : program.nullableRepetitions program.nullable = []) {rule : CompiledRule}
    (hrule : rule ∈ program.rules) {m : Matcher} (hm : m ∈ rule.parts) :
    m.isNullableRepetition program.nullable = false := by
  have hnone := List.map_eq_nil_iff.1 (List.flatMap_eq_nil_iff.1 h rule hrule)
  exact Bool.eq_false_iff.2 (List.filter_eq_nil_iff.1 hnone m hm)

/-- Every repetition that is cut short by a match of nothing was warned about, unless it is hidden.
There is one warning for each repetition that may read nothing when the parameter does read
something, under the name of its rule; and nothing that is done instead of stopping a repetition
makes a difference to a run from a simple rule, if it is not one of these and not hidden.  So
without warnings and hidden repetitions none is cut short. -/
theorem compile_warns (hcompile : grammar.compileWithLog options = (log, .ok program))
    (hbacktrack : program.Every fun m => m.isBacktrack = false)
    (hexternal : program.Every fun m => m.isExternal = false) (hregex : program.DetectsEmpty) :
    log.filterMap LogEntry.warning? = program.rules.flatMap (fun rule =>
      (rule.parts.filter (Matcher.isNullableRepetition program.nullable)).map fun _ => rule.name) ∧
    (∀ warned : Nat → Matcher → Bool,
      (∀ id rule, program.rules[id]? = some rule → ∀ m ∈ rule.parts,
        (m.isNullableRepetition program.nullable || program.isHidden id m) = true →
          warned id m = true) →
      ∀ (trap : Run (List Value)) (fuel id : Nat) (rule : CompiledRule),
        program.rules[id]? = some rule → rule.head.isTemplate = false →
        program.alarmedCall warned trap fuel id none = program.call fuel id none) ∧
    (log.filterMap LogEntry.warning? = [] →
      (∀ id rule, program.rules[id]? = some rule → ∀ m ∈ rule.parts,
        program.isHidden id m = false) →
      ∀ (fuel id : Nat) (rule : CompiledRule), program.rules[id]? = some rule →
        rule.head.isTemplate = false → (program.call fuel id none).Unstalled) := by
  have hscoped : program.WellScoped :=
    wellScoped_compile (congrArg Prod.snd hcompile : grammar.compile options = .ok program)
  have hlog := warnings_compileWithLog hcompile
  have hforward := hscoped.isForwardIn hbacktrack hexternal hregex
  refine ⟨hlog, fun warned hwarned trap fuel id rule hrule hsimple => ?_,
    fun hnone hhidden fuel id rule hrule hsimple => ?_⟩
  · exact Program.alarmedCall_eq hscoped hforward (Program.coversStalls_of_hidden hwarned) trap fuel
      hrule hsimple
  · rw [hlog] at hnone
    have hcovers : program.CoversStalls fun _ _ => false := by
      refine Program.coversStalls_of_hidden fun id rule hrule m hm h => ?_
      rw [isNullableRepetition_of_no_warning hnone (List.mem_of_getElem? hrule) hm,
        hhidden id rule hrule m hm] at h
      exact h
    have htrap : Run.Unstalled (none : Run (List Value)) := trivial
    -- without warnings nothing is trapped, so the run is one that records no stall
    rw [← Program.alarmedCall_eq hscoped hforward hcovers none fuel hrule hsimple]
    exact Program.matchRule_unstalled fun _ hrule _ halternative _ hitem _ =>
      Program.alarmed_unstalled hexternal htrap fuel id _
        (hexternal.ofItem hrule halternative hitem)

end Grammar

/-! ### A repetition that is warned of -/

namespace Commas

/-- A list of commas, each of which may be missing. -/
def grammar : Grammar :=
  { rules := [
      ⟨.simple "a", none, [⟨[⟨.template (some "k") "," {}, some .any, {}⟩], none, {}⟩], {}⟩,
      ⟨.template (some "k") "p", none, [⟨[⟨.name "p" {}, some .optional, {}⟩], none, {}⟩], {}⟩] }

def program : Program :=
  ⟨[⟨.simple "a", false, [⟨[.repeated (.template 1 ",") .any], none⟩], {}⟩,
    ⟨.template (some "k") "p", true, [⟨[.repeated .param .optional], none⟩], {}⟩]⟩

def log : List LogEntry :=
  [.compiledRule "a" 1, .compiledRule "k`p`" 1, .nullableRepetition "a", .compiledGrammar 2 0]

theorem compileWithLog_grammar : grammar.compileWithLog {} = (log, .ok program) :=
  Prod.ext (show (grammar.compileWithLog {}).1 = log by decide +kernel)
    (Program.eq_ok_of_same (by decide +kernel))

/-- There is one warning, and only what it is about is ever cut short. -/
theorem compile_warns_of_a : log.filterMap LogEntry.warning? = ["a"] ∧
    ∀ (trap : Run (List Value)) (fuel : Nat),
      program.alarmedCall (fun id _ => id == 0) trap fuel 0 none = program.call fuel 0 none := by
  have hwarned : ∀ id rule, program.rules[id]? = some rule → ∀ m ∈ rule.parts,
      (m.isNullableRepetition program.nullable || program.isHidden id m) = true →
        (id == 0) = true := by
    intro id rule hrule
    match id with
    | 0 => exact fun _ _ _ => rfl
    | 1 =>
      obtain rfl := Option.some.inj hrule
      decide +kernel
    | id + 2 => cases hrule
  obtain ⟨hlog, htrap, -⟩ := Grammar.compile_warns compileWithLog_grammar (by decide) (by decide)
    (Program.detectsEmpty_of_looksBack (by decide))
  exact ⟨hlog, fun trap fuel => htrap _ hwarned trap fuel 0 _ rfl rfl⟩

end Commas

/-! ### A repetition that is not -/

namespace Nothings

/-- Any number of copies of nothing. -/
def grammar : Grammar :=
  { rules := [
      ⟨.simple "a", none, [⟨[⟨.template (some "k") "" {}, none, {}⟩], none, {}⟩], {}⟩,
      ⟨.template (some "k") "p", none, [⟨[⟨.name "p" {}, some .any, {}⟩], none, {}⟩], {}⟩] }

def program : Program :=
  ⟨[⟨.simple "a", false, [⟨[.template 1 ""], none⟩], {}⟩,
    ⟨.template (some "k") "p", true, [⟨[.repeated .param .any], none⟩], {}⟩]⟩

def log : List LogEntry :=
  [.compiledRule "a" 1, .compiledRule "k`p`" 1, .compiledGrammar 2 0]

theorem compileWithLog_grammar : grammar.compileWithLog {} = (log, .ok program) :=
  Prod.ext (show (grammar.compileWithLog {}).1 = log by decide +kernel)
    (Program.eq_ok_of_same (by decide +kernel))

/-- The repetition of the parameter is cut short by the empty literal, and nothing is warned of. -/
theorem stalls_without_warning :
    grammar.compileWithLog {} = (log, .ok program) ∧
    program.Every (fun m => m.isBacktrack = false) ∧
    program.Every (fun m => m.isExternal = false) ∧ program.DetectsEmpty ∧
    log.filterMap LogEntry.warning? = [] ∧
    program.call 3 0 none [] 0 = some ([.entered 0 none [] 0, .entered 1 (some "") [] 0,
      .stalled 0, .matched 1 0, .matched 0 0], .success (.list []) 0) ∧
    program.alarmedCall (fun _ m => m.isNullableRepetition program.nullable) none 3 0 none [] 0 =
      none :=
  ⟨compileWithLog_grammar, by decide, by decide, Program.detectsEmpty_of_looksBack (by decide),
    rfl, rfl, by decide +kernel⟩

end Nothings

end Peg
