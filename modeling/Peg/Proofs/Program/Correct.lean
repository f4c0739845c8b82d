/-
Peg/Proofs/Program/Correct.lean

The grammars that compile.

`Grammar.Correct` says what a grammar has to be like, without saying how that
is found out: names are used once, every name in a pattern stands for
something of the right kind, variables refer to earlier items of their own
sequence only, regular expressions and mappers can be read, and no rule calls
itself before anything is read.  The compiler stops at the first thing that
is wrong; it accepts exactly the correct grammars.

The proof takes the compiler apart in its own order.  `Succeeds` says that an
action has a result, and every function of the resolver has a lemma that tells
when it has one.
-/
import Mathlib.Logic.Relation
import Peg.Proofs.Program.Resolve
import Peg.Proofs.Program.LeftCalls

namespace Peg

/-! ### Correct grammars -/

namespace Grammar

/-- A simple rule has the name. -/
def HasSimple (grammar : Grammar) (name : String) : Prop :=
  ∃ rule ∈ grammar.rules, rule.head = .simple name

/-- A template has the name, or has none. -/
def HasTemplate (grammar : Grammar) (name : Option String) : Prop :=
  ∃ rule ∈ grammar.rules, ∃ param, rule.head = .template name param

end Grammar

/-- A transformer is registered, or functions of the host are left to generated parsers. -/
def CompileOptions.Knows (options : CompileOptions) (function : String) : Prop :=
  function ∈ options.transformers.map (·.1) ∨ options.hostTransformers = true

def Pattern.IsLiteral : Pattern → Prop
  | .literal _ _ => True
  | _ => False

mutual

/-- Everything in a pattern stands for something.  `param` is the parameter of the enclosing
template, and `bound` tells how many items come before in each of the enclosing sequences,
innermost first. -/
def Pattern.Correct (grammar : Grammar) (options : CompileOptions) (param : Option String)
    (bound : List Nat) : Pattern → Prop
  | .literal _ _ | .any _ => True
  | .regex source flags _ =>
    ∃ expression, Regex.pattern? source flags options.dialect = some expression
  | .name name _ => param = some name ∨ grammar.HasSimple name
  | .variable index _ => index < bound.headD 0 ∧ ∀ outer ∈ bound.tail, outer ≤ index
  | .template function _ _ => grammar.HasTemplate function
  | .apply function inner _ =>
    (function ∈ builtinFunctions ∧ inner.Correct grammar options param bound) ∨
    (function ∉ builtinFunctions ∧ grammar.HasTemplate (some function) ∧ inner.IsLiteral) ∨
    (function ∉ builtinFunctions ∧ ¬ grammar.HasTemplate (some function) ∧
      ¬ grammar.HasSimple function ∧ options.Knows function ∧
      inner.Correct grammar options param bound)
  | .group items _ => CorrectFrom grammar options param bound 0 items

/-- Everything in a member of a group stands for something. -/
def GroupItem.Correct (grammar : Grammar) (options : CompileOptions) (param : Option String)
    (bound : List Nat) : GroupItem → Prop
  | .mk _ pattern _ _ => pattern.Correct grammar options param bound

/-- Everything in the members of a sequence that come after `index` others stands for
something. -/
def CorrectFrom (grammar : Grammar) (options : CompileOptions) (param : Option String)
    (outer : List Nat) (index : Nat) : List GroupItem → Prop
  | [] => True
  | item :: items =>
    item.Correct grammar options param (index :: outer) ∧
      CorrectFrom grammar options param outer (index + 1) items

end

/-- The mapper of an alternative can be read and refers to items of the alternative. -/
def Alternative.HasCorrectMapper (alternative : Alternative) : Prop :=
  ∀ mapper, alternative.mapper = some mapper → ∃ expr, MapperExpr.parse mapper.code = .ok expr ∧
    ∀ index ∈ expr.captures, index < alternative.items.length

namespace Grammar

/-- A program has the rules of a grammar, with their names resolved. -/
def ResolvesTo (grammar : Grammar) (options : CompileOptions) (program : Program) : Prop :=
  List.Forall₂ (fun rule compiled => Resolver.resolveRule ⟨grammar, options⟩ rule = .ok compiled)
    grammar.rules program.rules

/-- The grammars that compile. -/
structure Correct (grammar : Grammar) (options : CompileOptions) : Prop where
  notReserved : ∀ rule ∈ grammar.rules, ∀ name, rule.head.name? = some name →
    name ∉ builtinFunctions
  distinct : (grammar.rules.filterMap (·.head.name?)).Nodup
  oneNameless : (grammar.rules.filter (·.head.name?.isNone)).length ≤ 1
  patterns : ∀ rule ∈ grammar.rules, ∀ alternative ∈ rule.alternatives,
    CorrectFrom grammar options rule.head.param? [] 0
      (alternative.items.map (GroupItem.ofItem false))
  mappers : options.interpretMappers = true → ∀ rule ∈ grammar.rules,
    ∀ alternative ∈ rule.alternatives, alternative.HasCorrectMapper
  acyclic : options.rejectLeftRecursion = true → ∀ program, grammar.ResolvesTo options program →
    ∀ id, ¬ Relation.TransGen
      (fun id next => next ∈ program.leftCallsOf program.nullable id) id id

end Grammar

/-! ### Names of rules -/

/-- The name of a rule is accepted if it is not that of a combinator or of an earlier rule. -/
theorem checkName_eq_ok_iff {rule : Rule} {earlier : List Rule} :
    rule.checkName earlier = .ok () ↔
      (∀ name, rule.head.name? = some name → name ∉ builtinFunctions) ∧
        ∀ other ∈ earlier, other.head.name? ≠ rule.head.name? := by
  unfold Rule.checkName
  rcases hname : rule.head.name? with - | name
  · simp
  · simp only [List.contains_iff_mem, List.any_eq_true, beq_iff_eq]
    split
    · simp_all
    · split
      · simp_all
      · simp_all

/-- The names of all rules are accepted if they are not those of combinators and are distinct. -/
theorem checkNames_eq_ok_iff {rules earlier : List Rule} :
    checkNames earlier rules = .ok () ↔
      (∀ rule ∈ rules, ∀ name, rule.head.name? = some name → name ∉ builtinFunctions) ∧
        (rules.map (·.head.name?)).Nodup ∧
        ∀ rule ∈ rules, ∀ other ∈ earlier, other.head.name? ≠ rule.head.name? := by
  induction rules generalizing earlier with
  | nil => simp [checkNames]
  | cons rule rules ih =>
    rw [checkNames, bind_eq_ok_iff]
    simp only [List.forall_mem_cons, List.map_cons, List.nodup_cons, List.mem_map, not_exists,
      not_and]
    constructor
    · rintro ⟨⟨⟩, hrule, hrules⟩
      obtain ⟨hreserved, hearlier⟩ := checkName_eq_ok_iff.1 hrule
      obtain ⟨hothers, hnodup, hrest⟩ := ih.1 hrules
      refine ⟨⟨hreserved, hothers⟩, ⟨fun other hother heq => ?_, hnodup⟩, hearlier,
        fun other hother earlier hmem => hrest other hother earlier (List.mem_cons_of_mem _ hmem)⟩
      exact hrest other hother rule (List.mem_cons_self ..) heq.symm
    · rintro ⟨⟨hreserved, hothers⟩, ⟨hfresh, hnodup⟩, hearlier, hrest⟩
      refine ⟨(), checkName_eq_ok_iff.2 ⟨hreserved, hearlier⟩,
        ih.2 ⟨hothers, hnodup, fun other hother => ?_⟩⟩
      rw [List.forall_mem_cons]
      exact ⟨fun heq => hfresh other hother heq.symm, hrest other hother⟩

/-- Names that may be missing are distinct if those that are there are, and at most one is
missing. -/
theorem nodup_iff_filterMap {α : Type} {values : List (Option α)} :
    values.Nodup ↔ (values.filterMap id).Nodup ∧ (values.filter (·.isNone)).length ≤ 1 := by
  induction values with
  | nil => simp
  | cons value values ih =>
    have hnone : (none : Option α) ∉ values ↔ (values.filter (·.isNone)).length = 0 := by
      simp only [List.length_eq_zero_iff, List.filter_eq_nil_iff, Option.isNone_iff_eq_none]
      exact ⟨fun h value hvalue heq => h (heq ▸ hvalue), fun h hmem => h _ hmem rfl⟩
    cases value with
    | none =>
      rw [List.nodup_cons, hnone, ih]
      rw [List.filterMap_cons_none rfl, List.filter_cons_of_pos rfl, List.length_cons]
      exact ⟨fun ⟨hlength, hnodup, _⟩ => ⟨hnodup, by omega⟩,
        fun ⟨hnodup, hlength⟩ => ⟨by omega, hnodup, by omega⟩⟩
    | some value =>
      rw [List.nodup_cons, ih]
      simp [and_assoc]

/-! ### Actions with a result -/

/-- An action has a result. -/
def Succeeds {ε α : Type} (action : Except ε α) : Prop :=
  ∃ value, action = .ok value

theorem succeeds_ok {ε α : Type} (value : α) : Succeeds (.ok value : Except ε α) :=
  ⟨value, rfl⟩

theorem not_succeeds_error {ε α : Type} (error : ε) : ¬ Succeeds (.error error : Except ε α) :=
  nofun

/-- A step and what follows it succeed together, if what follows does so independently of the result
of the step. -/
theorem succeeds_bind_iff {ε α β : Type} {action : Except ε α} {next : α → Except ε β} {p : Prop}
    (hnext : ∀ value, action = .ok value → (Succeeds (next value) ↔ p)) :
    Succeeds (action >>= next) ↔ Succeeds action ∧ p := by
  rcases action with error | value
  · exact ⟨nofun, nofun⟩
  · exact (hnext value rfl).trans ⟨fun h => ⟨⟨value, rfl⟩, h⟩, fun h => h.2⟩

/-- An action that is followed by one that always has a result. -/
theorem succeeds_map_iff {ε α β : Type} {action : Except ε α} {f : α → β} :
    Succeeds (action >>= fun value => pure (f value)) ↔ Succeeds action :=
  (succeeds_bind_iff fun value _ => iff_true_intro (succeeds_ok (f value))).trans (iff_of_eq (and_true _))

/-- The same action for all elements of a list. -/
theorem exists_forall₂_iff {ε α β : Type} {f : α → Except ε β} {values : List α} :
    (∃ results, List.Forall₂ (fun value result => f value = .ok result) values results) ↔
      ∀ value ∈ values, Succeeds (f value) := by
  induction values with
  | nil => simp
  | cons value values ih =>
    rw [List.forall_mem_cons, ← ih]
    constructor
    · rintro ⟨_, - | @⟨_, result, _, results, hresult, hresults⟩⟩
      exact ⟨⟨result, hresult⟩, results, hresults⟩
    · rintro ⟨⟨result, hresult⟩, results, hresults⟩
      exact ⟨result :: results, .cons hresult hresults⟩

/-! ### Names in patterns -/

namespace Grammar

variable {grammar : Grammar}

theorem simpleRule?_isSome_iff {name : String} :
    (grammar.simpleRule? name).isSome = true ↔ grammar.HasSimple name := by
  rw [simpleRule?, List.findIdx?_isSome, List.any_eq_true]
  refine exists_congr fun rule => and_congr_right fun _ => ?_
  rcases rule.head with name' | ⟨name', param⟩ <;> simp [RuleHead.simpleName?]

theorem template?_isSome_iff {name : Option String} :
    (grammar.template? name).isSome = true ↔ grammar.HasTemplate name := by
  rw [template?, List.findIdx?_isSome, List.any_eq_true]
  refine exists_congr fun rule => and_congr_right fun _ => ?_
  rcases rule.head with name' | ⟨name', param⟩ <;>
    simp [RuleHead.isTemplate, RuleHead.name?]

end Grammar

namespace Resolver

variable {resolver : Resolver} {param : Option String} {bound : List Nat} {span : Span}

/-- A name is resolved if it is the parameter or a rule without one. -/
theorem succeeds_resolveName_iff {name : String} :
    Succeeds (resolver.resolveName param name span) ↔
      param = some name ∨ resolver.grammar.HasSimple name := by
  rw [← Grammar.simpleRule?_isSome_iff, resolveName]
  split
  · rename_i hparam
    exact iff_of_true (succeeds_ok _) (.inl hparam)
  · rename_i hparam
    rcases resolver.grammar.simpleRule? name with - | id
    · refine iff_of_false ?_ (by simp [hparam])
      dsimp only
      split <;> exact not_succeeds_error _
    · exact iff_of_true (succeeds_ok _) (.inr rfl)

/-- A template is resolved if there is a rule with a parameter and this name. -/
theorem succeeds_resolveTemplate_iff {function : Option String} :
    Succeeds (resolver.resolveTemplate function span) ↔ resolver.grammar.HasTemplate function := by
  rw [← Grammar.template?_isSome_iff]
  unfold resolveTemplate
  rcases resolver.grammar.template? function with - | id
  · refine iff_of_false ?_ (by simp)
    cases function with
    | none => exact not_succeeds_error _
    | some name =>
      dsimp only
      split <;> exact not_succeeds_error _
  · exact iff_of_true (succeeds_ok _) rfl

/-- A variable is resolved if its item comes earlier, here and in every group around. -/
theorem succeeds_resolveVariable_iff {index : Nat} :
    Succeeds (resolveVariable bound index span) ↔
      index < bound.headD 0 ∧ ∀ outer ∈ bound.tail, outer ≤ index := by
  unfold resolveVariable
  split
  · exact iff_of_false (not_succeeds_error _) fun h => by omega
  · split
    · rename_i hany
      refine iff_of_false (not_succeeds_error _) fun h => ?_
      obtain ⟨outer, houter, hless⟩ := List.any_eq_true.1 hany
      have := h.2 outer houter
      simp only [decide_eq_true_eq] at hless
      omega
    · rename_i hlt hany
      refine iff_of_true (succeeds_ok _) ⟨by omega, fun outer houter => ?_⟩
      by_contra hless
      exact hany (List.any_eq_true.2 ⟨outer, houter, by simpa using hless⟩)

theorem succeeds_resolveTransformer_iff {name : String} :
    Succeeds (resolver.resolveTransformer name span) ↔ resolver.options.Knows name := by
  have hlookup : (resolver.options.transformers.lookup name).isSome = true ↔
      name ∈ resolver.options.transformers.map (·.1) := by
    induction resolver.options.transformers with
    | nil => simp
    | cons entry entries ih =>
      rw [List.lookup_cons, List.map_cons, List.mem_cons, ← ih]
      by_cases hname : name = entry.1
      · simp [hname]
      · simp [hname, beq_eq_false_iff_ne.2 hname]
  rw [CompileOptions.Knows, ← hlookup, resolveTransformer]
  rcases resolver.options.transformers.lookup name with - | transformer
  · cases resolver.options.hostTransformers with
    | false => exact iff_of_false (not_succeeds_error _) (by simp)
    | true => exact iff_of_true (succeeds_ok _) (.inr rfl)
  · exact iff_of_true (succeeds_ok _) (.inl rfl)

theorem builtin?_isSome_iff {function : String} :
    (builtin? function).isSome = true ↔ function ∈ builtinFunctions := by
  unfold builtin? builtinFunctions
  split <;> simp_all

/-! ### Patterns -/

mutual

/-- A pattern is resolved exactly if everything in it stands for something. -/
theorem succeeds_resolvePattern_iff {bound : List Nat} : ∀ {pattern : Pattern},
    Succeeds (resolver.resolvePattern param bound pattern) ↔
      pattern.Correct resolver.grammar resolver.options param bound
  | .literal _ _ | .any _ => iff_of_true (succeeds_ok _) trivial
  | .regex source flags span => by
    rw [resolvePattern, Pattern.Correct]
    rcases Regex.pattern? source flags resolver.options.dialect with - | expression
    · exact iff_of_false (not_succeeds_error _) nofun
    · exact iff_of_true (succeeds_ok _) ⟨_, rfl⟩
  | .name name span => succeeds_resolveName_iff
  | .variable index span => succeeds_resolveVariable_iff
  | .template function body span => by
    rw [resolvePattern, succeeds_map_iff]
    exact succeeds_resolveTemplate_iff
  | .apply function inner span => by
    have hinner : Succeeds (resolver.resolvePattern param bound inner) ↔
        inner.Correct resolver.grammar resolver.options param bound :=
      succeeds_resolvePattern_iff
    rw [resolvePattern, Pattern.Correct, ← builtin?_isSome_iff,
      ← Grammar.template?_isSome_iff, ← Grammar.simpleRule?_isSome_iff]
    rcases builtin? function with - | make
    · rcases resolver.grammar.template? (some function) with - | id
      · by_cases hsimple : (resolver.grammar.simpleRule? function).isSome = true
        · simp only [hsimple, if_true]
          exact iff_of_false (not_succeeds_error _) (by simp)
        · simp only [hsimple, Bool.false_eq_true, if_false]
          rw [succeeds_bind_iff fun _ _ => succeeds_map_iff, succeeds_resolveTransformer_iff, hinner]
          simp
      · cases inner with
        | literal argument span => exact iff_of_true (succeeds_ok _) (by simp [Pattern.IsLiteral])
        | _ => exact iff_of_false (not_succeeds_error _) (by simp [Pattern.IsLiteral])
    · dsimp only
      rw [succeeds_map_iff, hinner]
      simp
  | .group items span => by
    rw [resolvePattern, succeeds_map_iff]
    exact succeeds_resolveGroupItems_iff

theorem succeeds_resolveGroupItem_iff {bound : List Nat} : ∀ {item : GroupItem},
    Succeeds (resolver.resolveGroupItem param bound item) ↔
      item.Correct resolver.grammar resolver.options param bound
  | .mk _ pattern _ _ => by
    rw [resolveGroupItem, succeeds_map_iff]
    exact succeeds_resolvePattern_iff

/-- Members of a sequence are resolved one after the other, each after those before it. -/
theorem succeeds_resolveGroupItems_iff {outer : List Nat} : ∀ {items : List GroupItem}
    {index : Nat}, Succeeds (resolver.resolveGroupItems param outer index items) ↔
      CorrectFrom resolver.grammar resolver.options param outer index items
  | [], _ => iff_of_true (succeeds_ok _) trivial
  | item :: items, index => by
    rw [resolveGroupItems, succeeds_bind_iff fun _ _ => succeeds_map_iff,
      succeeds_resolveGroupItem_iff, succeeds_resolveGroupItems_iff]
    rfl

end

/-! ### Alternatives and rules -/

/-- A mapper is resolved if it can be read and refers to items that there are. -/
theorem succeeds_resolveMapper_iff {count : Nat} {mapper : MapperCode} :
    Succeeds (resolveMapper count mapper) ↔ ∃ expr, MapperExpr.parse mapper.code = .ok expr ∧
      ∀ index ∈ expr.captures, index < count :=
  exists_congr fun _ => resolveMapper_eq_ok_iff

/-- An alternative is resolved if its items are and, when mappers are interpreted, its mapper is. -/
theorem succeeds_resolveAlternative_iff {alternative : Alternative} :
    Succeeds (resolver.resolveAlternative param alternative) ↔
      CorrectFrom resolver.grammar resolver.options param [] 0
        (alternative.items.map (GroupItem.ofItem false)) ∧
      (resolver.options.interpretMappers = true → alternative.HasCorrectMapper) := by
  rw [← succeeds_resolveGroupItems_iff, resolveAlternative]
  refine succeeds_bind_iff fun items hitems => ?_
  have hlength : items.length = alternative.items.length := by
    rw [(resolveGroupItems_scoped hitems).2, List.length_map]
  unfold Alternative.HasCorrectMapper
  rcases alternative.mapper with - | mapper
  · exact iff_of_true (succeeds_ok _) nofun
  · dsimp only
    split
    · rename_i hinterpret
      rw [succeeds_map_iff, succeeds_resolveMapper_iff, hlength]
      simp [hinterpret]
    · rename_i hskip
      exact iff_of_true (succeeds_ok _) fun hinterpret => absurd hinterpret hskip

/-- A rule is resolved if all its alternatives are. -/
theorem succeeds_resolveRule_iff {rule : Rule} :
    Succeeds (resolver.resolveRule rule) ↔ ∀ alternative ∈ rule.alternatives,
      Succeeds (resolver.resolveAlternative rule.head.param? alternative) := by
  rw [resolveRule, succeeds_map_iff, ← exists_forall₂_iff]
  exact exists_congr fun _ => mapM_eq_ok_iff

end Resolver

/-! ### Grammars -/

namespace Grammar

variable {grammar : Grammar} {options : CompileOptions}

/-- A grammar resolves to a program exactly if everything in its patterns stands for something and,
when mappers are interpreted, every mapper is correct. -/
theorem exists_resolvesTo_iff :
    (∃ program, grammar.ResolvesTo options program) ↔
      (∀ rule ∈ grammar.rules, ∀ alternative ∈ rule.alternatives,
        CorrectFrom grammar options rule.head.param? [] 0
          (alternative.items.map (GroupItem.ofItem false))) ∧
      (options.interpretMappers = true → ∀ rule ∈ grammar.rules,
        ∀ alternative ∈ rule.alternatives, alternative.HasCorrectMapper) := by
  have hrules : (∃ program, grammar.ResolvesTo options program) ↔
      ∀ rule ∈ grammar.rules, Succeeds (Resolver.resolveRule ⟨grammar, options⟩ rule) := by
    rw [← exists_forall₂_iff]
    exact ⟨fun ⟨program, h⟩ => ⟨program.rules, h⟩, fun ⟨rules, h⟩ => ⟨⟨rules⟩, h⟩⟩
  simp only [hrules, Resolver.succeeds_resolveRule_iff, Resolver.succeeds_resolveAlternative_iff]
  constructor
  · intro h
    exact ⟨fun rule hrule alternative halternative => (h rule hrule alternative halternative).1,
      fun hinterpret rule hrule alternative halternative =>
        (h rule hrule alternative halternative).2 hinterpret⟩
  · rintro ⟨hpatterns, hmappers⟩ rule hrule alternative halternative
    exact ⟨hpatterns rule hrule alternative halternative, fun hinterpret =>
      hmappers hinterpret rule hrule alternative halternative⟩

/-- Names resolve in one way. -/
theorem ResolvesTo.unique {program program' : Program} (h : grammar.ResolvesTo options program)
    (h' : grammar.ResolvesTo options program') : program = program' := by
  obtain ⟨rules⟩ := program
  obtain ⟨rules'⟩ := program'
  refine congrArg _ (List.right_unique_forall₂' (fun rule compiled compiled' h h' => ?_) h h')
  rw [h] at h'
  exact Except.ok.inj h'

/-- The compiler accepts exactly the correct grammars. -/
theorem compile_isOk_iff_correct (grammar : Grammar) (options : CompileOptions) :
    (∃ program, grammar.compile options = .ok program) ↔ grammar.Correct options := by
  have hnames : checkNames [] grammar.rules = .ok () ↔
      (∀ rule ∈ grammar.rules, ∀ name, rule.head.name? = some name → name ∉ builtinFunctions) ∧
      (grammar.rules.filterMap (·.head.name?)).Nodup ∧
      (grammar.rules.filter (·.head.name?.isNone)).length ≤ 1 := by
    rw [checkNames_eq_ok_iff, nodup_iff_filterMap, List.filterMap_map, List.filter_map,
      List.length_map]
    simp [Function.comp_def]
  constructor
  · rintro ⟨program, hcompile⟩
    obtain ⟨hchecked, hresolves, hcycle⟩ := compile_eq_ok_iff.1 hcompile
    obtain ⟨hreserved, hdistinct, hnameless⟩ := hnames.1 hchecked
    obtain ⟨hpatterns, hmappers⟩ := exists_resolvesTo_iff.1 ⟨program, hresolves⟩
    refine ⟨hreserved, hdistinct, hnameless, hpatterns, hmappers, fun hreject program' h => ?_⟩
    rw [h.unique hresolves]
    exact Program.checkLeftRecursion_eq_ok_iff.1 (hcycle hreject)
  · intro h
    obtain ⟨program, hresolves⟩ := exists_resolvesTo_iff.2 ⟨h.patterns, h.mappers⟩
    exact ⟨program, compile_eq_ok_iff.2 ⟨hnames.2 ⟨h.notReserved, h.distinct, h.oneNameless⟩,
      hresolves, fun hreject => Program.checkLeftRecursion_eq_ok_iff.2
        (h.acyclic hreject program hresolves)⟩⟩

end Grammar

end Peg
