/-
Peg/Proofs/Program/Fallback.lean

The answers of the interpreter for what is missing.

The interpreter has an answer when a rule does not exist, when a parameter has
no literal and when an item has not been matched: a fault, the empty text and
the absent value.  `matcherOr` is the same interpreter with other answers.

In a well-scoped program it makes no difference which ones, since nothing is
ever missing.  The captures at an item are as many as the items before it in
its sequence, and `bound` starts with their number; a rule that looks at its
parameter is a template, and templates are only called with a literal.  So
`matcherOr_eq` holds for any fuel, and for the matchings that functions of the
host are given too.  Since the compiler only makes well-scoped programs, what
the interpreter does where something is missing is never seen.
-/
import Peg.Program.Run
import Peg.Proofs.Program.Resolve
import Peg.Proofs.Program.Same
import Peg.Proofs.Run.Ensures

namespace Peg

/-- What is done where something is missing. -/
structure Fallback where
  /-- Instead of a rule, a parameter or a variable. -/
  matching : Matching Value
  /-- Instead of a capture in a mapper. -/
  value : Value

/-! ### Mappers -/

namespace MapperExpr

mutual

/-- The value of an expression, with another one for captures that are missing. -/
def evaluateOr (missing : Value) (captures : List Capture) (input : List Char) (span : Span) :
    MapperExpr → Value
  | .capture index => ((captures[index]?).map (·.value)).getD missing
  | .startOf index => ((captures[index]?).map fun capture => .int capture.span.start).getD missing
  | .endOf index => ((captures[index]?).map fun capture => .int capture.span.stop).getD missing
  | .text => .str (String.ofList ((Text.slice? input span.start span.stop).getD []))
  | .start => .int span.start
  | .stop => .int span.stop
  | .str string => .str string
  | .list items => .list (evaluateAllOr missing captures input span items)
  | .node kind arguments => .node kind span (evaluateAllOr missing captures input span arguments)
  | .concat terms => Value.concatAll (evaluateAllOr missing captures input span terms)

/-- The values of several expressions. -/
def evaluateAllOr (missing : Value) (captures : List Capture) (input : List Char) (span : Span) :
    List MapperExpr → List Value
  | [] => []
  | expr :: exprs =>
    evaluateOr missing captures input span expr :: evaluateAllOr missing captures input span exprs

end

variable {missing : Value} {captures : List Capture} {input : List Char} {span : Span}

mutual

/-- No capture is missing when there are more captures than the greatest index. -/
theorem evaluateOr_eq : ∀ {expr : MapperExpr}, (∀ index ∈ expr.captures, index < captures.length) →
    evaluateOr missing captures input span expr = evaluate captures input span expr
  | .capture index, h | .startOf index, h | .endOf index, h => by
    have hindex : index < captures.length := h index (List.mem_singleton_self _)
    simp [evaluateOr, evaluate, hindex]
  | .text, _ | .start, _ | .stop, _ | .str _, _ => rfl
  | .list items, h => congrArg Value.list (evaluateAllOr_eq h)
  | .node kind arguments, h => congrArg (Value.node kind span) (evaluateAllOr_eq h)
  | .concat terms, h => congrArg Value.concatAll (evaluateAllOr_eq h)

theorem evaluateAllOr_eq : ∀ {exprs : List MapperExpr},
    (∀ index ∈ capturesOfAll exprs, index < captures.length) →
    evaluateAllOr missing captures input span exprs = evaluateAll captures input span exprs
  | [], _ => rfl
  | expr :: exprs, h => by
    have hfirst : evaluateOr missing captures input span expr = evaluate captures input span expr :=
      evaluateOr_eq fun index hindex => h index (List.mem_append_left _ hindex)
    have hothers : evaluateAllOr missing captures input span exprs =
        evaluateAll captures input span exprs :=
      evaluateAllOr_eq fun index hindex => h index (List.mem_append_right _ hindex)
    rw [evaluateAllOr, evaluateAll, hfirst, hothers]

end

end MapperExpr

namespace Program

/-! ### The interpreter -/

/-- An alternative whose mapper gives another value for captures that are missing. -/
def matchAlternativeOr (fallback : Fallback) (step : Step) (alternative : CompiledAlternative)
    (param : Option String) : Matching Value := fun input start =>
  Run.andThen (matchItems step alternative.items param input start) fun captures stop =>
    let value := match alternative.mapper with
      | some mapper => mapper.evaluateOr fallback.value captures input ⟨start, stop⟩
      | none => .ofItems (captures.map (·.value))
    .done (.success value stop)

/-- A rule, or what is done if there is none. -/
def matchRuleOr (program : Program) (fallback : Fallback) (step : Step) (id : Nat)
    (param : Option String) : Matching Value := fun input start =>
  match program.rules[id]? with
  | none => fallback.matching input start
  | some rule =>
    match Combinator.choice
        (rule.alternatives.map fun alternative => matchAlternativeOr fallback step alternative param)
        input start with
    | none => none
    | some (events, outcome) =>
      let outcome := finishRule rule input outcome
      some (.entered id param input start :: events ++ leaving id outcome, outcome)

/-- The meaning of a matcher, with another one for what is missing. -/
def matcherOr (program : Program) (fallback : Fallback) : (fuel : Nat) → Step
  | 0, _, _, _, _ => none
  | fuel + 1, scope, m, input, start =>
    let step := matcherOr program fallback fuel
    let text := fun (outcome : Outcome String) => Run.primitive (outcome.map Value.str)
    match m with
    | .literal string => text (Primitive.literal string input start)
    | .regex expression description => text (Primitive.regex expression description input start)
    | .any => text (Primitive.anyChar input start)
    | .param =>
      match scope.param with
      | some literal => text (Primitive.literal literal input start)
      | none => fallback.matching input start
    | .variable index =>
      match scope.captures[index]? with
      | some capture => text (Primitive.literal capture.value.text input start)
      | none => fallback.matching input start
    | .rule id => program.matchRuleOr fallback step id none input start
    | .template id argument => program.matchRuleOr fallback step id (some argument) input start
    | .negative inner => (Combinator.negative (step scope inner) input start).mapValue .str
    | .look inner => Combinator.look (step scope inner) input start
    | .attempt inner => Combinator.attempt (step scope inner) input start
    | .backtrack inner => Combinator.backtrack (step scope inner) input start
    | .external _ (some transformer) inner => transformer (step scope inner) input start
    | .external name none _ => .done (.failure ⟨"<" ++ name ++ ">", start⟩)
    | .group items important =>
      (matchItems step items scope.param input start).mapValue (groupValue important)
    | .repeated inner .optional =>
      (Combinator.optional (step scope inner) input start).mapValue Value.ofOption
    | .repeated inner .any =>
      (Combinator.many fuel (step scope inner) input start).mapValue .list
    | .repeated inner .oneOrMore =>
      (Combinator.many1 fuel (step scope inner) input start).mapValue .list

/-! ### Captures -/

variable {program : Program} {fallback : Fallback} {step step' : Step} {param : Option String}
variable {heads : List RuleHead} {inTemplate : Bool} {input : List Char} {start : Nat}

/-- A sequence that succeeds captures each of its items. -/
theorem sequence_length (items : List Matcher) (captures : List Capture) :
    (Combinator.sequence (items.map fun item captures input start =>
      Run.andThen (step ⟨param, captures⟩ item input start) fun value stop =>
        .done (.success ⟨value, ⟨start, stop⟩⟩ stop)) captures input start).Ensures
      (fun all _ => all.length = captures.length + items.length) fun _ => True := by
  induction items generalizing captures start with
  | nil => rfl
  | cons item items ih =>
    refine (Run.Ensures.any _).andThen fun capture stop _ => ?_
    refine (ih (captures ++ [capture])).mono (fun all _ hall => ?_) fun _ h => h
    rw [hall, List.length_append, List.length_singleton, List.length_cons]
    omega

/-- Sequences are the same when their items are, at as many captures as there can be. -/
theorem sequence_eq {items : List Matcher} {outer : List Nat} {index : Nat}
    (hitems : ScopedFrom heads inTemplate outer index items)
    (hstep : ∀ (item : Matcher) (bound : List Nat) (captures : List Capture),
      item.Scoped heads inTemplate bound → captures.length = bound.headD 0 →
      step ⟨param, captures⟩ item = step' ⟨param, captures⟩ item)
    {captures : List Capture} (hcaptures : captures.length = index) :
    Combinator.sequence (items.map fun item captures input start =>
      Run.andThen (step ⟨param, captures⟩ item input start) fun value stop =>
        .done (.success ⟨value, ⟨start, stop⟩⟩ stop)) captures input start =
    Combinator.sequence (items.map fun item captures input start =>
      Run.andThen (step' ⟨param, captures⟩ item input start) fun value stop =>
        .done (.success ⟨value, ⟨start, stop⟩⟩ stop)) captures input start := by
  induction items generalizing captures index start with
  | nil => rfl
  | cons item items ih =>
    simp only [List.map_cons, Combinator.sequence]
    rw [hstep item _ captures hitems.1 hcaptures]
    refine (Run.Ensures.any _).andThen_congr fun capture stop _ => ?_
    exact ih hitems.2 (by rw [List.length_append, List.length_singleton, hcaptures])

/-! ### Fallbacks are not used -/

/-- The answers for what is missing make no difference with so much fuel. -/
def IgnoresFallback (program : Program) (fallback : Fallback) (fuel : Nat) : Prop :=
  ∀ {m : Matcher} {inTemplate : Bool} {bound : List Nat} {scope : Scope},
    m.Scoped program.heads inTemplate bound → (inTemplate = true → scope.param.isSome = true) →
    scope.captures.length = bound.headD 0 →
    program.matcherOr fallback fuel scope m = program.matcher fuel scope m

theorem matchItemsOr_eq (param : Option String) {fuel : Nat} (ih : program.IgnoresFallback fallback fuel)
    {items : List Matcher} {outer : List Nat}
    (hitems : ScopedFrom program.heads inTemplate outer 0 items)
    (hparam : inTemplate = true → param.isSome = true) :
    matchItems (program.matcherOr fallback fuel) items param =
      matchItems (program.matcher fuel) items param := by
  funext input start
  exact sequence_eq hitems
    (fun item bound captures hitem hcaptures => ih hitem hparam hcaptures) List.length_nil

theorem matchRuleOr_eq (param : Option String) (hprogram : program.WellScoped) {fuel : Nat}
    (ih : program.IgnoresFallback fallback fuel) {id : Nat} {head : RuleHead}
    (hhead : program.heads[id]? = some head)
    (hparam : head.isTemplate = true → param.isSome = true) :
    program.matchRuleOr fallback (program.matcherOr fallback fuel) id param =
      program.matchRule (program.matcher fuel) id param := by
  rw [heads, List.getElem?_map, Option.map_eq_some_iff] at hhead
  obtain ⟨rule, hrule, rfl⟩ := hhead
  have halternatives : (rule.alternatives.map fun alternative =>
      matchAlternativeOr fallback (program.matcherOr fallback fuel) alternative param) =
      rule.alternatives.map fun alternative =>
        matchAlternative (program.matcher fuel) alternative param := by
    refine List.map_congr_left fun alternative halternative => ?_
    have hscoped := hprogram rule (List.mem_of_getElem? hrule) alternative halternative
    funext input start
    rw [matchAlternativeOr, matchAlternative, matchItemsOr_eq param ih hscoped.items hparam]
    refine (sequence_length alternative.items []).andThen_congr fun captures stop hlength => ?_
    rcases hmapper : alternative.mapper with - | mapper
    · rfl
    · -- a sequence that succeeds has bound all its items, so the mapper finds them
      have hcaptures : ∀ index ∈ mapper.captures, index < captures.length := by
        rw [hlength, List.length_nil, Nat.zero_add]
        exact hscoped.mapper mapper hmapper
      simp only [MapperExpr.evaluateOr_eq hcaptures]
  funext input start
  rcases hrun : Combinator.choice (rule.alternatives.map fun alternative =>
    matchAlternative (program.matcher fuel) alternative param) input start with
    - | ⟨events, outcome⟩
  · simp only [matchRuleOr, matchRule, hrule, halternatives, hrun]
  · simp only [matchRuleOr, matchRule, hrule, halternatives, hrun]

/-- In a well-scoped program nothing is ever missing. -/
theorem matcherOr_eq (hprogram : program.WellScoped) (fallback : Fallback) (fuel : Nat) :
    program.IgnoresFallback fallback fuel := by
  induction fuel with
  | zero => exact fun _ _ _ => rfl
  | succ fuel ih =>
    intro m inTemplate bound scope hm hparam hcaptures
    have hinner : ∀ inner : Matcher, inner.Scoped program.heads inTemplate bound →
        program.matcherOr fallback fuel scope inner = program.matcher fuel scope inner :=
      fun _ hinner => ih hinner hparam hcaptures
    funext input start
    -- in scope, whatever a matcher looks up is there, so no fallback is asked
    cases m with
    | literal string => rfl
    | regex expression description => rfl
    | any => rfl
    | rule id =>
      obtain ⟨head, hhead, hsimple⟩ := hm
      have hrule := matchRuleOr_eq none hprogram ih hhead (by simp [hsimple])
      exact congrFun (congrFun hrule input) start
    | param =>
      obtain ⟨literal, hliteral⟩ := Option.isSome_iff_exists.1 (hparam hm)
      simp only [matcherOr, matcher, hliteral, Option.getD_some]
    | «variable» index =>
      have hindex : index < scope.captures.length := hcaptures ▸ hm.1
      simp only [matcherOr, matcher, Scope.textOf, List.getElem?_eq_getElem hindex,
        Option.map_some, Option.getD_some]
    | template id argument =>
      obtain ⟨head, hhead, -⟩ := hm
      have hrule := matchRuleOr_eq (some argument) hprogram ih hhead fun _ => rfl
      exact congrFun (congrFun hrule input) start
    | negative inner => simp only [matcherOr, matcher, hinner inner hm]
    | look inner => simp only [matcherOr, matcher, hinner inner hm]
    | attempt inner => simp only [matcherOr, matcher, hinner inner hm]
    | backtrack inner => simp only [matcherOr, matcher, hinner inner hm]
    | external name transformer inner =>
      cases transformer with
      | none => rfl
      | some transformer => simp only [matcherOr, matcher, hinner inner hm]
    | group items important =>
      have hitems := matchItemsOr_eq scope.param ih hm.1 hparam
      exact congrArg (Run.mapValue _) (congrFun (congrFun hitems input) start)
    | repeated inner repetition =>
      cases repetition <;> simp only [matcherOr, matcher, hinner inner hm]

end Program

/-! ### Compiled programs -/

/-- A compiled program refers only to what is there, so a run from a simple rule never depends on
what is done where something is missing. -/
theorem Grammar.compile_ignores_fallback {grammar : Grammar} {options : CompileOptions}
    {program : Program} (h : grammar.compile options = .ok program) :
    program.WellScoped ∧
      ∀ (fallback : Fallback) (fuel id : Nat) (rule : CompiledRule),
        program.rules[id]? = some rule → rule.head.isTemplate = false →
        program.matchRuleOr fallback (program.matcherOr fallback fuel) id none =
          program.matchRule (program.matcher fuel) id none := by
  have hscoped := Grammar.wellScoped_compile h
  refine ⟨hscoped, fun fallback fuel id rule hrule hsimple => ?_⟩
  have hhead : program.heads[id]? = some rule.head := by
    rw [Program.heads, List.getElem?_map, hrule]
    rfl
  exact Program.matchRuleOr_eq none hscoped (Program.matcherOr_eq hscoped fallback fuel) hhead
    (by simp [hsimple])

namespace Doubled

/-- The default template for a letter, and the same letter once more. -/
def grammar : Grammar :=
  { rules := [
      ⟨.simple "pair", none, [⟨[⟨.template none "x" {}, none, {}⟩, ⟨.variable 0 {}, none, {}⟩],
        some ⟨"pair($0, $1)", {}⟩, {}⟩], {}⟩,
      ⟨.template none "k", none, [⟨[⟨.name "k" {}, none, {}⟩], none, {}⟩], {}⟩] }

def program : Program :=
  ⟨[⟨.simple "pair", false,
      [⟨[.template 1 "x", .variable 0], some (.node "pair" [.capture 0, .capture 1])⟩], {}⟩,
    ⟨.template none "k", true, [⟨[.param], none⟩], {}⟩]⟩

theorem compile_grammar : grammar.compile {} = .ok program :=
  Program.eq_ok_of_same (by decide +kernel)

/-- Without the items it refers to, the pair would give the values of the fallback. -/
theorem program_ignores_fallback : program.WellScoped ∧
    ∀ (fallback : Fallback) (fuel : Nat),
      program.matchRuleOr fallback (program.matcherOr fallback fuel) 0 none =
        program.matchRule (program.matcher fuel) 0 none :=
  ⟨(Grammar.compile_ignores_fallback compile_grammar).1, fun fallback fuel =>
    (Grammar.compile_ignores_fallback compile_grammar).2 fallback fuel 0 _ rfl rfl⟩

end Doubled

end Peg
