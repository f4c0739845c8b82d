/-
Peg/Proofs/Program/Errors.lean

Where the errors of the compiler point.

An error about a grammar has the span of the part that is wrong: of a rule, a
pattern or a mapper.  So it is one of the spans of the grammar, or the empty
one for a cycle of rules that the program does not have.

What holds of all these spans is called `inside` here.  Each function of the
compiler is given parts whose spans have it, and an error it ends with has it
too.
-/
import Peg.Program.Compile
import Peg.Proofs.Grammar.Spans

namespace Peg

open CompileError

variable {inside : Span → Prop}

/-- An action that fails, if it does, with an error whose span is as is said. -/
abbrev CompileError.Points {α : Type} (inside : Span → Prop) (action : Except CompileError α) :
    Prop :=
  Ensures inside (fun _ => True) action

/-! ### Declarations -/

theorem checkName_points {rule : Rule} (h : inside rule.span) (earlier : List Rule) :
    Points inside (rule.checkName earlier) := by
  rw [Rule.checkName]
  rcases rule.head.name? with - | name
  · dsimp only
    split
    · exact h
    · trivial
  · dsimp only
    split
    · exact h
    · split
      · exact h
      · trivial

theorem checkNames_points {rules : List Rule} (h : ∀ rule ∈ rules, inside rule.span)
    (earlier : List Rule) : Points inside (checkNames earlier rules) := by
  induction rules generalizing earlier with
  | nil => trivial
  | cons rule rules ih =>
    obtain ⟨hrule, hrules⟩ := List.forall_mem_cons.1 h
    apply (checkName_points hrule earlier).bind
    intro result hresult
    exact ih hrules (rule :: earlier)

namespace Resolver

variable {resolver : Resolver} {param : Option String} {span : Span}

/-! ### Names -/

theorem resolveName_points (h : inside span) (name : String) :
    Points inside (resolver.resolveName param name span) := by
  rw [resolveName]
  split
  · trivial
  · rcases resolver.grammar.simpleRule? name with - | id
    · dsimp only
      split
      · exact h
      · exact h
    · trivial

theorem resolveTemplate_points (h : inside span) (function : Option String) :
    Points inside (resolver.resolveTemplate function span) := by
  unfold resolveTemplate
  rcases resolver.grammar.template? function with - | id
  · cases function with
    | none => exact h
    | some name =>
      dsimp only
      split
      · exact h
      · exact h
  · trivial

theorem resolveVariable_points (h : inside span) (bound : List Nat) (index : Nat) :
    Points inside (resolveVariable bound index span) := by
  rw [resolveVariable]
  split
  · exact h
  · split
    · exact h
    · trivial

theorem resolveTransformer_points (h : inside span) (name : String) :
    Points inside (resolver.resolveTransformer name span) := by
  rw [resolveTransformer]
  rcases resolver.options.transformers.lookup name with - | transformer
  · dsimp only
    split
    · trivial
    · exact h
  · trivial

/-! ### Patterns -/

mutual

theorem resolvePattern_points (bound : List Nat) : ∀ pattern : Pattern,
    (∀ span ∈ pattern.spans, inside span) →
      Points inside (resolver.resolvePattern param bound pattern)
  | .literal _ _, _ | .any _, _ => trivial
  | .regex source flags span, h => by
    -- the only leaf that is not looked up anywhere: it may not be a regular expression
    have hspan : inside span := List.forall_mem_singleton.1 h
    rw [resolvePattern]
    rcases Regex.pattern? source flags resolver.options.dialect with - | expression
    · exact hspan
    · trivial
  | .name name span, h => resolveName_points (List.forall_mem_singleton.1 h) name
  | .variable index span, h => resolveVariable_points (List.forall_mem_singleton.1 h) bound index
  | .template function body span, h => by
    rw [resolvePattern]
    exact (resolveTemplate_points (List.forall_mem_singleton.1 h) function).bind fun _ _ => trivial
  | .apply function inner span, h => by
    obtain ⟨hspan, hinner⟩ := List.forall_mem_cons.1 h
    have hresolved := resolvePattern_points bound inner hinner
    rw [resolvePattern]
    rcases builtin? function with - | make
    · rcases resolver.grammar.template? (some function) with - | id
      · dsimp only
        split
        · exact hspan
        · apply (resolveTransformer_points hspan function).bind
          intro transformer htransformer
          exact hresolved.bind fun _ _ => trivial
      · -- a template takes a literal and nothing else
        cases inner with
        | literal argument inner => trivial
        | _ => exact hspan
    · exact hresolved.bind fun _ _ => trivial
  | .group items span, h => by
    rw [resolvePattern]
    exact (resolveGroupItems_points bound 0 items (List.forall_mem_cons.1 h).2).bind
      fun _ _ => trivial

theorem resolveGroupItem_points (bound : List Nat) : ∀ item : GroupItem,
    (∀ span ∈ item.spans, inside span) →
      Points inside (resolver.resolveGroupItem param bound item)
  | .mk important pattern repetition span, h => by
    rw [resolveGroupItem]
    exact (resolvePattern_points bound pattern (List.forall_mem_cons.1 h).2).bind fun _ _ => trivial

theorem resolveGroupItems_points (outer : List Nat) : ∀ (index : Nat) (items : List GroupItem),
    (∀ span ∈ spansOfItems items, inside span) →
      Points inside (resolver.resolveGroupItems param outer index items)
  | _, [], _ => by
    rw [resolveGroupItems]
    trivial
  | index, item :: items, h => by
    obtain ⟨hitem, hitems⟩ := List.forall_mem_append.1 h
    rw [resolveGroupItems]
    apply (resolveGroupItem_points (index :: outer) item hitem).bind
    intro matcher hmatcher
    exact (resolveGroupItems_points outer (index + 1) items hitems).bind fun _ _ => trivial

end

/-! ### Rules -/

theorem resolveItems_points {items : List Item}
    (h : ∀ item ∈ items, ∀ span ∈ item.spans, inside span) :
    Points inside (resolver.resolveItems param items) := by
  refine resolveGroupItems_points [] 0 _ ?_
  rw [spansOfItems_eq_flatMap, List.flatMap_map]
  exact List.forall_mem_flatMap.2 h

theorem resolveMapper_points {mapper : MapperCode} (h : inside mapper.span) (count : Nat) :
    Points inside (resolveMapper count mapper) := by
  rw [resolveMapper]
  rcases MapperExpr.parse mapper.code with error | expr
  · exact h
  · dsimp only
    rcases expr.maxCapture? with - | index
    · trivial
    · dsimp only
      split
      · exact h
      · trivial

theorem resolveAlternative_points {alternative : Alternative}
    (h : ∀ span ∈ alternative.spans, inside span) :
    Points inside (resolver.resolveAlternative param alternative) := by
  obtain ⟨-, h⟩ := List.forall_mem_cons.1 h
  obtain ⟨hitems, hmapper⟩ := List.forall_mem_append.1 h
  rw [resolveAlternative]
  apply (resolveItems_points (List.forall_mem_flatMap.1 hitems)).bind
  intro items hresolved
  rcases hcode : alternative.mapper with - | mapper
  · trivial
  · have hspan : inside mapper.span := hmapper _ (by rw [hcode]; exact List.mem_singleton_self _)
    dsimp only
    split
    · exact (resolveMapper_points hspan _).bind fun _ _ => trivial
    · trivial

/-- The rule of a program has the span of the one of the grammar. -/
theorem resolveRule_ensures {rule : Rule} (h : ∀ span ∈ rule.spans, inside span) :
    Ensures inside (fun compiled => inside compiled.span) (resolver.resolveRule rule) := by
  obtain ⟨hspan, halternatives⟩ := List.forall_mem_cons.1 h
  have hresolved : Ensures inside (fun alternatives => ∀ alternative ∈ alternatives, True)
      (rule.alternatives.mapM (resolver.resolveAlternative rule.head.param?)) :=
    .mapM fun alternative halternative =>
      resolveAlternative_points (List.forall_mem_flatMap.1 halternatives alternative halternative)
  exact hresolved.bind fun _ _ => hspan

theorem resolveRules_ensures {rules : List Rule}
    (h : ∀ rule ∈ rules, ∀ span ∈ rule.spans, inside span) :
    Ensures inside (fun compiled => ∀ rule ∈ compiled, inside rule.span)
      (resolver.resolveRules rules).2 := by
  induction rules with
  | nil => exact fun _ hrule => nomatch hrule
  | cons rule rules ih =>
    obtain ⟨hrule, hrules⟩ := List.forall_mem_cons.1 h
    have hfirst : Ensures inside (fun compiled => inside compiled.span)
        (resolver.resolveRule rule) := resolveRule_ensures hrule
    have hothers := ih hrules
    rw [resolveRules]
    rcases hcompiled : resolver.resolveRule rule with error | compiled
    · exact hfirst.error hcompiled
    · rw [hcompiled] at hfirst
      rcases hlater : resolver.resolveRules rules with ⟨log, error | others⟩
      · rw [hlater] at hothers
        exact hothers
      · rw [hlater] at hothers
        exact List.forall_mem_cons.2 ⟨hfirst, hothers⟩

end Resolver

/-! ### Compilation -/

/-- A cycle is shown at the first of its rules. -/
theorem Program.checkLeftRecursion_points {program : Program} (hempty : inside {})
    (h : ∀ rule ∈ program.rules, inside rule.span) (nullable : Nullable) :
    Points inside (program.checkLeftRecursion nullable) := by
  rw [checkLeftRecursion]
  rcases findCycle (program.leftCallGraph nullable) with - | cycle
  · trivial
  · show inside (((cycle.filterMap fun id => program.rules[id]?).head?.map (·.span)).getD {})
    rcases hrules : cycle.filterMap fun id => program.rules[id]? with - | ⟨rule, rules⟩
    · exact hempty
    · have hmem : rule ∈ cycle.filterMap fun id => program.rules[id]? := by
        rw [hrules]
        exact List.mem_cons_self ..
      obtain ⟨id, -, hid⟩ := List.mem_filterMap.1 hmem
      exact h rule (List.mem_of_getElem? hid)

namespace Grammar

variable {grammar : Grammar}

/-- What holds of the spans of a grammar, and of the empty one, holds of the span of an error. -/
theorem compile_points (hempty : inside {}) (h : ∀ span ∈ grammar.spans, inside span)
    (options : CompileOptions) : Points inside (grammar.compile options) := by
  have hrules := List.forall_mem_flatMap.1 (List.forall_mem_append.1 h).2
  have hnames := checkNames_points
    (fun rule hrule => (List.forall_mem_cons.1 (hrules rule hrule)).1) []
  have hresolved : Ensures inside (fun compiled => ∀ rule ∈ compiled, inside rule.span)
      (Resolver.resolveRules ⟨grammar, options⟩ grammar.rules).2 :=
    Resolver.resolveRules_ensures hrules
  rw [compile, compileWithLog]
  generalize checkNames [] grammar.rules = names at hnames
  generalize Resolver.resolveRules ⟨grammar, options⟩ grammar.rules = resolved at hresolved
  rcases names with error | -
  · exact hnames
  · rcases resolved with ⟨log, error | rules⟩
    · exact hresolved
    · have hchecked := Program.checkLeftRecursion_points hempty hresolved
        (Program.nullable ⟨rules⟩)
      dsimp only
      rw [finishCompilation]
      generalize Program.checkLeftRecursion ⟨rules⟩ _ = checked at hchecked
      rcases options.rejectLeftRecursion with - | -
      · trivial
      · rcases checked with error | -
        · exact hchecked
        · trivial

end Grammar

end Peg
