/-
Peg/Proofs/Program/Spanless.lean

Programs and their spans.

Nothing but diagnostics depends on where a grammar was read from.  A run looks
at the alternatives of a rule and at whether it skips blanks, never at its
span, so a program and the same program without spans run alike:

    program.eraseSpans.matcher fuel = program.matcher fuel

And what a grammar compiles to depends on its spans only in the spans:

    grammar.eraseSpans.compile options = spanless (grammar.compile options)

where `spanless` takes the spans out of the error, if it is one, and out of
the program.  There is one equation of this form for each function of the
compiler; the functions that give no spans take them out of the error alone.
-/
import Peg.Program.Compile
import Peg.Proofs.Grammar.Printable
import Peg.Proofs.Program.Items

namespace Peg

/-! ### Spans erased -/

/-- A rule of a program without its span. -/
def CompiledRule.eraseSpan (rule : CompiledRule) : CompiledRule :=
  { rule with span := {} }

/-- A program without its spans. -/
def Program.eraseSpans (program : Program) : Program :=
  ⟨program.rules.map CompiledRule.eraseSpan⟩

namespace CompileError

/-- An error without its span. -/
def eraseSpan (error : CompileError) : CompileError :=
  { error with span := {} }

/-- A result without the spans of the error or of the program. -/
def spanless (result : Except CompileError Program) : Except CompileError Program :=
  (result.map Program.eraseSpans).mapError eraseSpan

end CompileError

/-! ### Runs -/

namespace Program

variable {program : Program}

theorem getElem?_eraseSpans (id : Nat) :
    program.eraseSpans.rules[id]? = program.rules[id]?.map CompiledRule.eraseSpan :=
  List.getElem?_map

/-- Spans are not among the items. -/
theorem itemLists_eraseSpans : program.eraseSpans.itemLists = program.itemLists := by
  rw [itemLists, eraseSpans, List.map_map]
  rfl

/-- Running a rule does not ask for its span. -/
theorem matchRule_eraseSpans (step : Step) (id : Nat) (param : Option String) :
    program.eraseSpans.matchRule step id param = program.matchRule step id param := by
  funext input start
  rw [matchRule, matchRule, getElem?_eraseSpans]
  rcases program.rules[id]? with - | rule
  · rfl
  · rfl

/-- A program runs like the same program without spans. -/
theorem matcher_eraseSpans (fuel : Nat) :
    program.eraseSpans.matcher fuel = program.matcher fuel := by
  induction fuel with
  | zero => rfl
  | succ fuel ih =>
    funext scope m input start
    cases m with
    | external name transformer inner => cases transformer <;> simp only [matcher, ih]
    | repeated inner repetition => cases repetition <;> simp only [matcher, ih]
    | _ => simp only [matcher, ih, matchRule_eraseSpans]

theorem heads_eraseSpans : program.eraseSpans.rules.map (·.head) = program.rules.map (·.head) := by
  rw [eraseSpans, List.map_map]
  rfl

/-- So a program does the same without spans, with the same events on the way. -/
theorem executeWithEvents_eraseSpans (subject : List Char) (entry : Option String) (full : Bool) :
    program.eraseSpans.executeWithEvents subject entry full =
      program.executeWithEvents subject entry full := by
  have hrun : ∀ id, program.eraseSpans.runRule id subject 0 = program.runRule id subject 0 :=
    fun id => by
      rw [runRule, runRule, matcher_eraseSpans, matchRule_eraseSpans,
        fuel_of_itemLists itemLists_eraseSpans]
  rw [executeWithEvents, executeWithEvents, startRule_of_heads heads_eraseSpans]
  rcases program.startRule entry with error | id
  · rfl
  · simp only [hrun]

/-- Programs that differ in their spans alone have the same results. -/
theorem execute_eq_of_eraseSpans {program' : Program}
    (h : program.eraseSpans = program'.eraseSpans) : program.execute = program'.execute := by
  funext subject entry full
  rw [execute, execute, ← executeWithEvents_eraseSpans, h, executeWithEvents_eraseSpans]

/-! ### Left recursion -/

/-- The error for a cycle names the same rules; its span is that of the first one. -/
theorem leftRecursionError_eraseSpans (cycle : List Nat) :
    program.eraseSpans.leftRecursionError cycle = (program.leftRecursionError cycle).eraseSpan := by
  have hrules : (cycle.filterMap fun id => program.eraseSpans.rules[id]?) =
      (cycle.filterMap fun id => program.rules[id]?).map CompiledRule.eraseSpan := by
    simp only [getElem?_eraseSpans, List.map_filterMap]
  have hspan : ∀ rules : List CompiledRule,
      (((rules.map CompiledRule.eraseSpan).head?.map (·.span)).getD {} : Span) = {} := by
    rintro (- | ⟨rule, rules⟩)
    · rfl
    · rfl
  simp only [leftRecursionError, CompileError.eraseSpan, hrules, hspan, List.map_map]
  rfl

/-- The check finds the same cycle. -/
theorem checkLeftRecursion_eraseSpans (nullable : Nullable) :
    program.eraseSpans.checkLeftRecursion nullable =
      (program.checkLeftRecursion nullable).mapError CompileError.eraseSpan := by
  rw [checkLeftRecursion, checkLeftRecursion, leftCallGraph_of_itemLists itemLists_eraseSpans]
  rcases findCycle (program.leftCallGraph nullable) with - | cycle
  · rfl
  · exact congrArg Except.error (leftRecursionError_eraseSpans cycle)

/-- The same repetitions are warned about. -/
theorem nullableRepetitions_eraseSpans (nullable : Nullable) :
    program.eraseSpans.nullableRepetitions nullable = program.nullableRepetitions nullable := by
  rw [nullableRepetitions, eraseSpans, List.flatMap_map]
  rfl

end Program

/-! ### Names -/

namespace CompileError

variable {α β : Type}

/-- Spans may be erased from errors as they come up. -/
theorem mapError_bind (action : Except CompileError α) (next : α → Except CompileError β) :
    (action >>= next).mapError eraseSpan =
      action.mapError eraseSpan >>= fun value => (next value).mapError eraseSpan := by
  rcases action with error | value
  · rfl
  · rfl

theorem mapError_pure (value : α) :
    (pure value : Except CompileError α).mapError eraseSpan = pure value := rfl

theorem mapError_ok (value : α) :
    (.ok value : Except CompileError α).mapError eraseSpan = .ok value := rfl

end CompileError

open CompileError

/-- Names are checked alike, up to where the error points. -/
theorem checkName_eraseSpans (rule : Rule) (earlier : List Rule) :
    rule.eraseSpans.checkName (earlier.map Rule.eraseSpans) =
      (rule.checkName earlier).mapError eraseSpan := by
  have hany : ∀ p : RuleHead → Bool,
      (earlier.map Rule.eraseSpans).any (fun other => p other.head) =
        earlier.any fun other => p other.head := fun p => by
    rw [List.any_map]
    rfl
  have hhead : rule.eraseSpans.head = rule.head := rfl
  rw [Rule.checkName, Rule.checkName, hhead]
  rcases rule.head.name? with - | name
  · simp only [hany fun head => head.name?.isNone]
    split
    · rfl
    · rfl
  · simp only [hany fun head => head.name? == some name]
    split
    · rfl
    · split
      · rfl
      · rfl

/-- So are all names of a grammar, one after the other. -/
theorem checkNames_eraseSpans (earlier rules : List Rule) :
    checkNames (earlier.map Rule.eraseSpans) (rules.map Rule.eraseSpans) =
      (checkNames earlier rules).mapError eraseSpan := by
  induction rules generalizing earlier with
  | nil => rfl
  | cons rule rules ih =>
    rw [List.map_cons, checkNames, checkNames, checkName_eraseSpans, mapError_bind,
      ← List.map_cons, ih]

namespace Grammar

variable (grammar : Grammar)

/-- A name stands for the same rule. -/
theorem simpleRule?_eraseSpans (name : String) :
    grammar.eraseSpans.simpleRule? name = grammar.simpleRule? name := by
  rw [simpleRule?, eraseSpans, List.findIdx?_map]
  rfl

/-- A name stands for the same template. -/
theorem template?_eraseSpans (name : Option String) :
    grammar.eraseSpans.template? name = grammar.template? name := by
  rw [template?, eraseSpans, List.findIdx?_map]
  rfl

end Grammar

namespace Resolver

/-- A resolver for the grammar without its spans. -/
def eraseSpans (resolver : Resolver) : Resolver :=
  ⟨resolver.grammar.eraseSpans, resolver.options⟩

@[simp] theorem options_eraseSpans (resolver : Resolver) :
    resolver.eraseSpans.options = resolver.options := rfl

variable (resolver : Resolver) (param : Option String)

/-- A name resolves alike, up to where the error points. -/
theorem resolveName_eraseSpans (name : String) (span : Span) :
    resolver.eraseSpans.resolveName param name {} =
      (resolver.resolveName param name span).mapError eraseSpan := by
  simp only [resolveName, eraseSpans, Grammar.simpleRule?_eraseSpans, Grammar.template?_eraseSpans]
  split
  · rfl
  · rcases resolver.grammar.simpleRule? name with - | id
    · dsimp only
      split
      · rfl
      · rfl
    · rfl

theorem resolveTemplate_eraseSpans (function : Option String) (span : Span) :
    resolver.eraseSpans.resolveTemplate function {} =
      (resolver.resolveTemplate function span).mapError eraseSpan := by
  simp only [resolveTemplate, eraseSpans, Grammar.simpleRule?_eraseSpans,
    Grammar.template?_eraseSpans]
  rcases resolver.grammar.template? function with - | id
  · cases function with
    | none => rfl
    | some name =>
      dsimp only
      split
      · rfl
      · rfl
  · rfl

theorem resolveVariable_eraseSpans (bound : List Nat) (index : Nat) (span : Span) :
    resolveVariable bound index {} = (resolveVariable bound index span).mapError eraseSpan := by
  rw [resolveVariable, resolveVariable]
  split
  · rfl
  · split
    · rfl
    · rfl

/-- A function resolves alike, up to where the error points. -/
theorem resolveTransformer_eraseSpans (name : String) (span : Span) :
    resolver.eraseSpans.resolveTransformer name {} =
      (resolver.resolveTransformer name span).mapError eraseSpan := by
  rw [resolveTransformer, resolveTransformer, eraseSpans]
  rcases resolver.options.transformers.lookup name with - | transformer
  · dsimp only
    split
    · rfl
    · rfl
  · rfl

/-! ### Patterns -/

/-- Erasing spans keeps the marks of important items. -/
theorem importantIndexes_eraseSpans (items : List GroupItem) :
    importantIndexes (eraseSpansOfItems items) = importantIndexes items := by
  have himportant : ∀ item : GroupItem, item.eraseSpans.important = item.important := by
    rintro ⟨important, pattern, repetition, span⟩
    rfl
  simp only [importantIndexes, eraseSpansOfItems_eq_map, List.zipIdx_map, List.filter_map,
    List.map_map, Function.comp_def, Prod.map, himportant, id]

mutual

/-- Patterns resolve to the same matchers, which have no spans in them; by induction on patterns,
along with items and groups. -/
theorem resolvePattern_eraseSpans (bound : List Nat) : ∀ pattern : Pattern,
    resolver.eraseSpans.resolvePattern param bound pattern.eraseSpans =
      (resolver.resolvePattern param bound pattern).mapError eraseSpan
  | .literal _ _ | .any _ => rfl
  | .regex source flags span => by
    rw [Pattern.eraseSpans, resolvePattern, resolvePattern, options_eraseSpans]
    rcases Regex.pattern? source flags resolver.options.dialect with - | expression
    · rfl
    · rfl
  | .name name span => resolveName_eraseSpans resolver param name span
  | .variable index span => resolveVariable_eraseSpans bound index span
  | .template function body span => by
    rw [Pattern.eraseSpans, resolvePattern, resolvePattern, mapError_bind,
      ← resolveTemplate_eraseSpans]
    rfl
  | .apply function inner span => by
    have hinner := resolvePattern_eraseSpans bound inner
    rw [Pattern.eraseSpans, resolvePattern, resolvePattern]
    -- the three ways to read an application look at names only
    rcases builtin? function with - | make
    · have htemplate : resolver.eraseSpans.grammar.template? (some function) =
          resolver.grammar.template? (some function) :=
        Grammar.template?_eraseSpans resolver.grammar (some function)
      have hsimple : resolver.eraseSpans.grammar.simpleRule? function =
          resolver.grammar.simpleRule? function :=
        Grammar.simpleRule?_eraseSpans resolver.grammar function
      rw [htemplate, hsimple]
      rcases resolver.grammar.template? (some function) with - | id
      · dsimp only
        split
        · rfl
        · rw [mapError_bind, ← resolveTransformer_eraseSpans]
          simp only [mapError_bind, hinner, mapError_pure]
      · cases inner <;> rfl
    · simp only [mapError_bind, hinner, mapError_pure]
  | .group items span => by
    rw [Pattern.eraseSpans, resolvePattern, resolvePattern, mapError_bind,
      resolveGroupItems_eraseSpans, importantIndexes_eraseSpans]
    rfl

theorem resolveGroupItem_eraseSpans (bound : List Nat) : ∀ item : GroupItem,
    resolver.eraseSpans.resolveGroupItem param bound item.eraseSpans =
      (resolver.resolveGroupItem param bound item).mapError eraseSpan
  | .mk important pattern repetition span => by
    rw [GroupItem.eraseSpans, resolveGroupItem, resolveGroupItem, mapError_bind,
      resolvePattern_eraseSpans]
    rfl

theorem resolveGroupItems_eraseSpans (outer : List Nat) : ∀ (index : Nat) (items : List GroupItem),
    resolver.eraseSpans.resolveGroupItems param outer index (eraseSpansOfItems items) =
      (resolver.resolveGroupItems param outer index items).mapError eraseSpan
  | _, [] => rfl
  | index, item :: items => by
    rw [eraseSpansOfItems, resolveGroupItems, resolveGroupItems, mapError_bind,
      resolveGroupItem_eraseSpans]
    simp only [mapError_bind, resolveGroupItems_eraseSpans outer (index + 1) items, mapError_pure]

end

/-! ### Rules -/

theorem resolveItems_eraseSpans (items : List Item) :
    resolver.eraseSpans.resolveItems param (items.map Item.eraseSpans) =
      (resolver.resolveItems param items).mapError eraseSpan := by
  rw [resolveItems, resolveItems, ← resolveGroupItems_eraseSpans, eraseSpansOfItems_eq_map,
    List.map_map, List.map_map]
  rfl

/-- The error of a mapper points to the mapper as a whole. -/
theorem resolveMapper_eraseSpans (count : Nat) (mapper : MapperCode) :
    resolveMapper count mapper.eraseSpans = (resolveMapper count mapper).mapError eraseSpan := by
  rw [resolveMapper, resolveMapper, MapperCode.eraseSpans]
  rcases MapperExpr.parse mapper.code with error | expr
  · rfl
  · dsimp only
    rcases expr.maxCapture? with - | index
    · rfl
    · dsimp only
      split
      · rfl
      · rfl

/-- An alternative has no span of its own when it is compiled. -/
theorem resolveAlternative_eraseSpans (alternative : Alternative) :
    resolver.eraseSpans.resolveAlternative param alternative.eraseSpans =
      (resolver.resolveAlternative param alternative).mapError eraseSpan := by
  rcases alternative with ⟨items, mapper, span⟩
  rw [resolveAlternative, resolveAlternative, Alternative.eraseSpans, mapError_bind,
    resolveItems_eraseSpans]
  congr 1
  funext matchers
  cases mapper with
  | none => rfl
  | some mapper =>
    have hoptions : resolver.eraseSpans.options.interpretMappers =
        resolver.options.interpretMappers := rfl
    rw [Option.map_some]
    dsimp only
    rw [hoptions]
    split
    · rw [mapError_bind, resolveMapper_eraseSpans]
      rfl
    · rfl

/-- A compiled rule keeps the span of its rule, which is erased. -/
theorem resolveRule_eraseSpans (rule : Rule) :
    resolver.eraseSpans.resolveRule rule.eraseSpans =
      ((resolver.resolveRule rule).map CompiledRule.eraseSpan).mapError eraseSpan := by
  have halternatives : ∀ alternatives : List Alternative,
      (alternatives.map Alternative.eraseSpans).mapM
          (resolver.eraseSpans.resolveAlternative rule.head.param?) =
        (alternatives.mapM (resolver.resolveAlternative rule.head.param?)).mapError eraseSpan := by
    intro alternatives
    induction alternatives with
    | nil => rfl
    | cons alternative alternatives ih =>
      rw [List.map_cons, List.mapM_cons, List.mapM_cons, resolveAlternative_eraseSpans, ih]
      simp only [mapError_bind, mapError_pure]
  rw [resolveRule, resolveRule, Rule.eraseSpans, halternatives]
  rcases rule.alternatives.mapM (resolver.resolveAlternative rule.head.param?) with
    error | alternatives
  · rfl
  · rfl

/-- What is logged has no spans in it, so only results and errors change. -/
theorem resolveRules_eraseSpans (rules : List Rule) :
    resolver.eraseSpans.resolveRules (rules.map Rule.eraseSpans) =
      (resolver.resolveRules rules).map id fun result =>
        (result.map (List.map CompiledRule.eraseSpan)).mapError eraseSpan := by
  induction rules with
  | nil => rfl
  | cons rule rules ih =>
    rw [List.map_cons, resolveRules, resolveRules, resolveRule_eraseSpans]
    rcases resolver.resolveRule rule with error | compiled
    · rfl
    · simp only [ih, Except.map, mapError_ok]
      rcases resolver.resolveRules rules with ⟨log, error | others⟩
      · rfl
      · rfl

end Resolver

/-! ### Compilation -/

namespace Grammar

/-- The check and the warnings at the end do not depend on spans. -/
theorem finishCompilation_eraseSpans (grammar : Grammar) (options : CompileOptions)
    (program : Program) :
    grammar.eraseSpans.finishCompilation options program.eraseSpans =
      (grammar.finishCompilation options program).map id spanless := by
  have hpastas : grammar.eraseSpans.pastas.length = grammar.pastas.length := List.length_map _
  simp only [finishCompilation, Program.nullable_of_itemLists Program.itemLists_eraseSpans,
    Program.nullableRepetitions_eraseSpans, Program.checkLeftRecursion_eraseSpans,
    Program.length_of_itemLists Program.itemLists_eraseSpans, hpastas]
  rcases options.rejectLeftRecursion with - | -
  · rfl
  · simp only [if_true]
    rcases program.checkLeftRecursion program.nullable with error | -
    · rfl
    · rfl

/-- What a grammar compiles to, and what is logged about it, depends on its spans only in the
spans. -/
theorem compileWithLog_eraseSpans (grammar : Grammar) (options : CompileOptions) :
    grammar.eraseSpans.compileWithLog options =
      (grammar.compileWithLog options).map id spanless := by
  have hgrammar : grammar.eraseSpans.rules = grammar.rules.map Rule.eraseSpans := rfl
  have hnames : checkNames [] (grammar.rules.map Rule.eraseSpans) =
      (checkNames [] grammar.rules).mapError eraseSpan := checkNames_eraseSpans [] grammar.rules
  have hrules := Resolver.resolveRules_eraseSpans ⟨grammar, options⟩ grammar.rules
  rw [Resolver.eraseSpans] at hrules
  rw [compileWithLog, compileWithLog, hgrammar, hnames, hrules]
  rcases checkNames [] grammar.rules with error | -
  · rfl
  · rcases Resolver.resolveRules ⟨grammar, options⟩ grammar.rules with ⟨log, error | rules⟩
    · rfl
    · have hfinish := finishCompilation_eraseSpans grammar options ⟨rules⟩
      rw [Program.eraseSpans] at hfinish
      simp only [mapError_ok, Except.map, Prod.map_apply, id_eq, hfinish]
      rfl

/-- What a grammar compiles to depends on its spans only in the spans. -/
theorem compile_eraseSpans (grammar : Grammar) (options : CompileOptions) :
    grammar.eraseSpans.compile options = spanless (grammar.compile options) := by
  rw [compile, compileWithLog_eraseSpans]
  rfl

/-- A result that is a program but for the spans is a program, with the same runs. -/
theorem execute_of_spanless {result : Except CompileError Program} {program : Program}
    (h : spanless result = spanless (.ok program)) :
    ∃ program', result = .ok program' ∧ program'.execute = program.execute := by
  rcases result with error | program'
  · cases h
  · have herase : program'.eraseSpans = program.eraseSpans := Except.ok.inj h
    exact ⟨program', rfl, Program.execute_eq_of_eraseSpans herase⟩

end Grammar

end Peg
