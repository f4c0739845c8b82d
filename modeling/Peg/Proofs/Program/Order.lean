/-
Peg/Proofs/Program/Order.lean

The order in which the rules of a grammar are declared.

Reordering the rules of a grammar numbers them differently and does nothing
else.  A permutation of a list is a bijection `σ` of the places of its
elements (`exists_numbering`), names that are used once are found at `σ` of
the old place, and so every function of the resolver satisfies an equation

    resolve' x = (resolve x).map (renumber σ)

in which the errors are the same on both sides.  Hence the programs are
renumberings of each other, and `Program.IsRenumbered` says what follows.

Only which error is reported first, and which rule is the one that a run
starts with unless another is named, depend on the order.
-/
import Peg.Proofs.Grammar.Tree
import Peg.Proofs.Program.Renumber

namespace Peg

/-- The functions of the host that are registered are told how matches end, and no more. -/
def CompileOptions.SeesOutcomes (options : CompileOptions) : Prop :=
  ∀ entry ∈ options.transformers, entry.2.SeesOutcomes

/-! ### The places of a permuted list -/

/-- The numbering of a list with one more element in front, which keeps its place. -/
def afterFirst (σ : Equiv.Perm Nat) : Equiv.Perm Nat where
  toFun
    | 0 => 0
    | n + 1 => σ n + 1
  invFun
    | 0 => 0
    | n + 1 => σ.symm n + 1
  left_inv := by
    rintro (- | n)
    · rfl
    · simp only [Equiv.symm_apply_apply]
  right_inv := by
    rintro (- | n)
    · rfl
    · simp only [Equiv.apply_symm_apply]

/-- The elements of a permuted list are at other places. -/
theorem exists_numbering {α : Type} {values values' : List α} (h : values.Perm values') :
    ∃ σ : Equiv.Perm Nat, ∀ place, values'[σ place]? = values[place]? := by
  induction h with
  | nil => exact ⟨Equiv.refl _, fun _ => rfl⟩
  | cons value _ ih =>
    obtain ⟨σ, hσ⟩ := ih
    refine ⟨afterFirst σ, ?_⟩
    rintro (- | place)
    · rfl
    · exact hσ place
  | swap first second others =>
    refine ⟨Equiv.swap 0 1, ?_⟩
    rintro (- | - | place)
    · rfl
    · rfl
    · rw [Equiv.swap_apply_of_ne_of_ne (by omega) (by omega)]
      rfl
  | trans _ _ ih ih' =>
    obtain ⟨σ, hσ⟩ := ih
    obtain ⟨τ, hτ⟩ := ih'
    exact ⟨σ.trans τ, fun place => (hτ (σ place)).trans (hσ place)⟩

/-- What is there once is found at its new place. -/
theorem findIdx?_renumbered {α : Type} {σ : Equiv.Perm Nat} {values values' : List α}
    (hplaces : ∀ place, values'[σ place]? = values[place]?) {p : α → Bool}
    (honce : ∀ (place place' : Nat) value value', values[place]? = some value →
      values[place']? = some value' → p value = true → p value' = true → place = place') :
    values'.findIdx? p = (values.findIdx? p).map σ := by
  rcases hfound : values.findIdx? p with - | place
  · rw [List.findIdx?_eq_none_iff] at hfound
    rw [Option.map_none, List.findIdx?_eq_none_iff]
    intro value hvalue
    obtain ⟨place', hplace'⟩ := List.getElem?_of_mem hvalue
    have hplace := hplaces (σ.symm place')
    rw [Equiv.apply_symm_apply, hplace'] at hplace
    exact hfound value (List.mem_of_getElem? hplace.symm)
  · obtain ⟨hlt, hvalue, -⟩ := List.findIdx?_eq_some_iff_getElem.1 hfound
    have hplace := List.getElem?_eq_getElem hlt
    have hsome : (values'.findIdx? p).isSome = true := by
      rw [List.findIdx?_isSome, List.any_eq_true]
      exact ⟨_, List.mem_of_getElem? ((hplaces place).trans hplace), hvalue⟩
    obtain ⟨place', hfound'⟩ := Option.isSome_iff_exists.1 hsome
    obtain ⟨hlt', hvalue', -⟩ := List.findIdx?_eq_some_iff_getElem.1 hfound'
    have hback := hplaces (σ.symm place')
    rw [Equiv.apply_symm_apply, List.getElem?_eq_getElem hlt'] at hback
    rw [hfound', Option.map_some, honce place (σ.symm place') _ _ hplace hback.symm hvalue hvalue',
      Equiv.apply_symm_apply]

/-! ### Names -/

/-- Two grammars with the same rules at other places. -/
structure Grammar.IsReordered (σ : Equiv.Perm Nat) (grammar grammar' : Grammar) : Prop where
  places : ∀ id, grammar'.rules[σ id]? = grammar.rules[id]?
  names : (grammar.rules.map (·.head.name?)).Nodup

namespace Grammar.IsReordered

variable {σ : Equiv.Perm Nat} {grammar grammar' : Grammar}

/-- A name is that of one rule. -/
theorem eq_of_name (h : grammar.IsReordered σ grammar') {id id' : Nat} {rule rule' : Rule}
    (hrule : grammar.rules[id]? = some rule) (hrule' : grammar.rules[id']? = some rule')
    (hname : rule.head.name? = rule'.head.name?) : id = id' := by
  have hlt : id < (grammar.rules.map (·.head.name?)).length := by
    rw [List.length_map]
    exact (List.getElem?_eq_some_iff.1 hrule).1
  refine (List.getElem?_inj hlt h.names).1 ?_
  rw [List.getElem?_map, List.getElem?_map, hrule, hrule', Option.map_some, Option.map_some, hname]

/-- The name of a simple rule is its name. -/
theorem name?_of_simpleName? {head : RuleHead} {name : String}
    (h : (head.simpleName? == some name) = true) : head.name? = some name := by
  cases head with
  | simple other => exact beq_iff_eq.1 h
  | template other param => cases h

/-- A simple rule is found at its new place. -/
theorem simpleRule? (h : grammar.IsReordered σ grammar') (name : String) :
    grammar'.simpleRule? name = (grammar.simpleRule? name).map σ := by
  refine findIdx?_renumbered h.places fun id id' rule rule' hrule hrule' hname hname' => ?_
  exact h.eq_of_name hrule hrule'
    ((name?_of_simpleName? hname).trans (name?_of_simpleName? hname').symm)

/-- A template is found at its new place. -/
theorem template? (h : grammar.IsReordered σ grammar') (name : Option String) :
    grammar'.template? name = (grammar.template? name).map σ := by
  refine findIdx?_renumbered h.places fun id id' rule rule' hrule hrule' hname hname' => ?_
  rw [Bool.and_eq_true, beq_iff_eq] at hname hname'
  exact h.eq_of_name hrule hrule' (hname.2.trans hname'.2.symm)

end Grammar.IsReordered

/-! ### Patterns -/

namespace Resolver

/-- Two resolvers that find the same rules under the old and the new numbers. -/
structure Agree (σ : Nat → Nat) (resolver resolver' : Resolver) : Prop where
  options : resolver'.options = resolver.options
  simpleRule? : ∀ name, resolver'.grammar.simpleRule? name =
    (resolver.grammar.simpleRule? name).map σ
  template? : ∀ name, resolver'.grammar.template? name = (resolver.grammar.template? name).map σ

variable {σ : Nat → Nat} {resolver resolver' : Resolver} {param : Option String}

/-- A name resolves to the new number of its rule. -/
theorem Agree.resolveName (h : Agree σ resolver resolver') (name : String) (span : Span) :
    resolver'.resolveName param name span =
      (resolver.resolveName param name span).map (Matcher.renumber σ) := by
  simp only [Resolver.resolveName, h.simpleRule?, h.template?, Option.isSome_map]
  split
  · rfl
  · rcases resolver.grammar.simpleRule? name with - | id
    · dsimp only [Option.map_none]
      split
      · rfl
      · rfl
    · rfl

/-- So does the name of a template. -/
theorem Agree.resolveTemplate (h : Agree σ resolver resolver') (function : Option String)
    (span : Span) :
    resolver'.resolveTemplate function span = (resolver.resolveTemplate function span).map σ := by
  simp only [Resolver.resolveTemplate, h.simpleRule?, h.template?, Option.isSome_map]
  rcases resolver.grammar.template? function with - | id
  · cases function with
    | none => rfl
    | some name =>
      dsimp only [Option.map_none]
      split
      · rfl
      · rfl
  · rfl

/-- Variables count items, which stay where they are. -/
theorem resolveVariable_renumber (σ : Nat → Nat) (bound : List Nat) (index : Nat) (span : Span) :
    resolveVariable bound index span =
      (resolveVariable bound index span).map (Matcher.renumber σ) := by
  unfold resolveVariable
  split
  · rfl
  · split
    · rfl
    · rfl

/-- The functions of the host are looked up in the options. -/
theorem Agree.resolveTransformer (h : Agree σ resolver resolver') (name : String) (span : Span) :
    resolver'.resolveTransformer name span = resolver.resolveTransformer name span := by
  rw [Resolver.resolveTransformer, Resolver.resolveTransformer, h.options]

/-- A built-in function does not look at numbers. -/
theorem builtin?_renumber {function : String} {make : Matcher → Matcher}
    (h : builtin? function = some make) (inner : Matcher) :
    make (inner.renumber σ) = (make inner).renumber σ := by
  unfold builtin? at h
  split at h
  · cases h
    rfl
  · cases h
    rfl
  · cases h
    rfl
  · cases h
    rfl
  · cases h

theorem repeatMatcher_renumber (repetition : Option Repetition) (m : Matcher) :
    repeatMatcher repetition (m.renumber σ) = (repeatMatcher repetition m).renumber σ := by
  cases repetition <;> rfl

mutual

/-- Patterns resolve to the renumbered matchers, errors included; by induction on patterns, along
with items and groups. -/
theorem Agree.resolvePattern (h : Agree σ resolver resolver') (bound : List Nat) :
    ∀ pattern : Pattern, resolver'.resolvePattern param bound pattern =
      (resolver.resolvePattern param bound pattern).map (Matcher.renumber σ)
  | .literal _ _ | .any _ => rfl
  | .regex source flags span => by
    rw [Resolver.resolvePattern, Resolver.resolvePattern, h.options]
    rcases Regex.pattern? source flags resolver.options.dialect with - | expression
    · rfl
    · rfl
  | .name name span => h.resolveName name span
  | .variable index span => resolveVariable_renumber σ bound index span
  | .template function body span => by
    rw [Resolver.resolvePattern, Resolver.resolvePattern, h.resolveTemplate]
    simp only [Tree.map_bind, Tree.bind_map, Tree.pure_map, Matcher.renumber]
  | .apply function inner span => by
    have hinner := h.resolvePattern bound inner
    rw [Resolver.resolvePattern, Resolver.resolvePattern]
    rcases hmake : builtin? function with - | make
    · rw [h.simpleRule?, h.template?, Option.isSome_map]
      rcases resolver.grammar.template? (some function) with - | id
      · dsimp only [Option.map_none]
        split
        · rfl
        · rw [h.resolveTransformer]
          simp only [hinner, Tree.map_bind, Tree.bind_map, Tree.pure_map, Matcher.renumber]
      · cases inner <;> rfl
    · simp only [hinner, Tree.map_bind, Tree.bind_map, Tree.pure_map, builtin?_renumber hmake]
  | .group items span => by
    rw [Resolver.resolvePattern, Resolver.resolvePattern, h.resolveGroupItems]
    simp only [Tree.map_bind, Tree.bind_map, Tree.pure_map, Matcher.renumber]

theorem Agree.resolveGroupItem (h : Agree σ resolver resolver') (bound : List Nat) :
    ∀ item : GroupItem, resolver'.resolveGroupItem param bound item =
      (resolver.resolveGroupItem param bound item).map (Matcher.renumber σ)
  | .mk important pattern repetition span => by
    rw [Resolver.resolveGroupItem, Resolver.resolveGroupItem, h.resolvePattern]
    simp only [Tree.map_bind, Tree.bind_map, Tree.pure_map, repeatMatcher_renumber]

theorem Agree.resolveGroupItems (h : Agree σ resolver resolver') (outer : List Nat) :
    ∀ (index : Nat) (items : List GroupItem),
      resolver'.resolveGroupItems param outer index items =
        (resolver.resolveGroupItems param outer index items).map (renumberAll σ)
  | _, [] => rfl
  | index, item :: items => by
    rw [Resolver.resolveGroupItems, Resolver.resolveGroupItems, h.resolveGroupItem]
    simp only [h.resolveGroupItems outer (index + 1) items, Tree.map_bind, Tree.bind_map, Tree.pure_map,
      renumberAll]

end

/-! ### Rules -/

/-- So do alternatives, whose mappers have no numbers of rules in them. -/
theorem Agree.resolveAlternative (h : Agree σ resolver resolver') (alternative : Alternative) :
    resolver'.resolveAlternative param alternative =
      (resolver.resolveAlternative param alternative).map (CompiledAlternative.renumber σ) := by
  have hlength : ∀ items : List Matcher, (renumberAll σ items).length = items.length := by
    intro items
    rw [renumberAll_eq_map, List.length_map]
  rw [Resolver.resolveAlternative, Resolver.resolveAlternative, Resolver.resolveItems,
    Resolver.resolveItems, h.resolveGroupItems, h.options, Tree.map_bind, Tree.bind_map]
  refine bind_congr fun items => ?_
  rcases alternative.mapper with - | mapper
  · rfl
  · dsimp only
    split
    · simp only [hlength, Tree.bind_map, Tree.pure_map, CompiledAlternative.renumber]
    · rfl

/-- Actions with the same results but for a function of them, one after the other. -/
theorem mapM_eq_map {ε α β : Type} {f f' : α → Except ε β} {g : β → β}
    (h : ∀ value, f' value = (f value).map g) (values : List α) :
    values.mapM f' = (values.mapM f).map (List.map g) := by
  induction values with
  | nil => rfl
  | cons value values ih =>
    rw [List.mapM_cons, List.mapM_cons, h, ih]
    simp only [Tree.map_bind, Tree.bind_map, Tree.pure_map, List.map_cons]

/-- So do rules. -/
theorem Agree.resolveRule (h : Agree σ resolver resolver') (rule : Rule) :
    resolver'.resolveRule rule = (resolver.resolveRule rule).map (CompiledRule.renumber σ) := by
  rw [Resolver.resolveRule, Resolver.resolveRule, mapM_eq_map h.resolveAlternative, h.options]
  simp only [Tree.map_bind, Tree.bind_map, Tree.pure_map, CompiledRule.renumber]

/-! ### Functions of the host -/

theorem seesOutcomes_builtin {function : String} {make : Matcher → Matcher}
    (h : builtin? function = some make) {inner : Matcher}
    (hinner : inner.Every Matcher.SeesOutcomes) : (make inner).Every Matcher.SeesOutcomes := by
  unfold builtin? at h
  split at h
  · cases h
    exact .ofBody rfl trivial hinner
  · cases h
    exact .ofBody rfl trivial hinner
  · cases h
    exact .ofBody rfl trivial hinner
  · cases h
    exact .ofBody rfl trivial hinner
  · cases h

/-- A function that a name stands for is registered, or it is left to generated parsers. -/
theorem seesOutcomes_external (hhost : resolver.options.SeesOutcomes) {name : String} {span : Span}
    {transformer : Option Transformer} (h : resolver.resolveTransformer name span = .ok transformer)
    (inner : Matcher) : (Matcher.external name transformer inner).SeesOutcomes := by
  unfold Resolver.resolveTransformer at h
  split at h
  · rename_i found hfound
    cases h
    obtain ⟨before, after, hentries, -⟩ := List.lookup_eq_some_iff.1 hfound
    refine hhost (name, found) ?_
    rw [hentries]
    exact List.mem_append_right _ (List.mem_cons_self ..)
  · split at h
    · cases h
      trivial
    · cases h

mutual

/-- All functions in the matcher for a pattern come from the options; by induction on patterns. -/
theorem seesOutcomes_pattern (hhost : resolver.options.SeesOutcomes) {bound : List Nat} :
    ∀ {pattern : Pattern} {m : Matcher}, resolver.resolvePattern param bound pattern = .ok m →
      m.Every Matcher.SeesOutcomes
  | .literal _ _, _, h | .any _, _, h => by
    cases h
    exact .ofLeaf rfl trivial
  | .regex source flags span, _, h => by
    obtain ⟨expression, -, rfl⟩ := resolveRegex_cases h
    exact .ofLeaf rfl trivial
  | .name name span, _, h => by
    rcases resolveName_cases h with ⟨-, rfl⟩ | ⟨-, id, -, rfl⟩
    · exact .ofLeaf rfl trivial
    · exact .ofLeaf rfl trivial
  | .variable index span, _, h => by
    obtain ⟨rfl, -⟩ := resolveVariable_cases h
    exact .ofLeaf rfl trivial
  | .template function body span, _, h => by
    obtain ⟨id, -, rfl⟩ := resolveInstance_cases h
    exact .ofLeaf rfl trivial
  | .apply function inner span, _, h => by
    cases applied_of_resolvePattern h with
    | builtin hmake hbody => exact seesOutcomes_builtin hmake (seesOutcomes_pattern hhost hbody)
    | template hbuiltin hid => exact .ofLeaf rfl trivial
    | external hbuiltin htemplate htransformer hbody =>
      exact .ofBody rfl (seesOutcomes_external hhost htransformer _)
        (seesOutcomes_pattern hhost hbody)
  | .group items span, _, h => by
    obtain ⟨matchers, hmatchers, rfl⟩ := resolveGroup_cases h
    refine .ofMembers trivial fun item hitem part hpart => ?_
    exact seesOutcomes_groupItems hhost hmatchers part (mem_partsOfAll.2 ⟨item, hitem, hpart⟩)

theorem seesOutcomes_groupItem (hhost : resolver.options.SeesOutcomes) {bound : List Nat} :
    ∀ {item : GroupItem} {m : Matcher}, resolver.resolveGroupItem param bound item = .ok m →
      m.Every Matcher.SeesOutcomes
  | .mk _ pattern repetition _, _, h => by
    rw [Resolver.resolveGroupItem] at h
    obtain ⟨body, hbody, h⟩ := bind_eq_ok_iff.1 h
    cases h
    have hpattern := seesOutcomes_pattern hhost hbody
    cases repetition with
    | none => exact hpattern
    | some repetition => exact .ofBody rfl trivial hpattern

theorem seesOutcomes_groupItems (hhost : resolver.options.SeesOutcomes) {outer : List Nat} :
    ∀ {items : List GroupItem} {index : Nat} {matchers : List Matcher},
      resolver.resolveGroupItems param outer index items = .ok matchers →
      ∀ part ∈ partsOfAll matchers, part.SeesOutcomes
  | [], _, _, h => by
    cases h
    simp [partsOfAll]
  | item :: items, index, _, h => by
    rw [Resolver.resolveGroupItems] at h
    obtain ⟨matcher, hmatcher, h⟩ := bind_eq_ok_iff.1 h
    obtain ⟨matchers, hmatchers, h⟩ := bind_eq_ok_iff.1 h
    cases h
    intro part hpart
    rcases List.mem_append.1 hpart with hpart | hpart
    · exact seesOutcomes_groupItem hhost hmatcher part hpart
    · exact seesOutcomes_groupItems hhost hmatchers part hpart

end

/-- So do all in the parts of a rule. -/
theorem seesOutcomes_rule (hhost : resolver.options.SeesOutcomes) {rule : Rule} {compiled : CompiledRule}
    (h : resolver.resolveRule rule = .ok compiled) :
    ∀ part ∈ compiled.parts, part.SeesOutcomes := by
  obtain ⟨alternatives, halternatives, rfl⟩ := resolveRule_eq_ok_iff.1 h
  intro part hpart
  obtain ⟨alternative, halternative, hpart⟩ := List.mem_flatMap.1 hpart
  obtain ⟨source, -, hsource⟩ := exists_of_mem_right halternatives halternative
  obtain ⟨items, hitems, hsource⟩ := bind_eq_ok_iff.1 hsource
  have hparts := seesOutcomes_groupItems hhost hitems
  split at hsource
  · split at hsource
    · obtain ⟨expr, -, hsource⟩ := bind_eq_ok_iff.1 hsource
      cases hsource
      exact hparts part hpart
    · cases hsource
      exact hparts part hpart
  · cases hsource
    exact hparts part hpart

end Resolver

/-! ### Programs -/

namespace Program

variable {program : Program}

/-- In a well-scoped program only rules that exist are called. -/
theorem WellScoped.isClosed (h : program.WellScoped) : program.IsClosed := by
  intro rule hrule part hpart
  obtain ⟨bound, hscoped⟩ := h.part hrule hpart
  have hlt : ∀ id head, program.heads[id]? = some head → id < program.rules.length := by
    intro id head hhead
    rw [← List.length_map (·.head)]
    exact (List.getElem?_eq_some_iff.1 hhead).1
  cases part with
  | rule id =>
    obtain ⟨head, hhead, -⟩ := hscoped
    exact hlt id head hhead
  | template id argument =>
    obtain ⟨head, hhead, -⟩ := hscoped
    exact hlt id head hhead
  | _ => trivial

/-- The result of a run depends on its outcome only. -/
theorem result_congr {run run' : Run Value} (h : run'.outcome? = run.outcome?)
    (subject : List Char) (full : Bool) : result subject full run' = result subject full run := by
  rcases run with - | ⟨events, outcome⟩
  · obtain rfl : run' = none := Option.map_eq_none_iff.1 h
    rfl
  · obtain ⟨⟨events', outcome'⟩, rfl, rfl⟩ := Option.map_eq_some_iff.1 h
    cases outcome' <;> rfl

end Program

namespace Grammar

variable {grammar : Grammar} {options : CompileOptions} {program program' : Program}

/-- So do all in a program. -/
theorem seesOutcomes_compile (hhost : options.SeesOutcomes)
    (h : grammar.ResolvesTo options program) : program.Every Matcher.SeesOutcomes := by
  intro compiled hcompiled
  obtain ⟨rule, -, hrule⟩ := exists_of_mem_right h hcompiled
  have hresolver : (⟨grammar, options⟩ : Resolver).options.SeesOutcomes := hhost
  exact Resolver.seesOutcomes_rule hresolver hrule

/-- Names are looked up in a program as in its grammar. -/
theorem ruleId?_compile (h : grammar.compile options = .ok program) (name : String) :
    program.ruleId? name = grammar.simpleRule? name := by
  have hheads := congrArg (List.findIdx? fun head => head.simpleName? == some name)
    (heads_compile h)
  rw [Program.heads, heads, List.findIdx?_map, List.findIdx?_map] at hheads
  exact hheads

/-- Names that are distinct in one order are distinct in every order. -/
theorem checkNames_perm {rules rules' : List Rule} (hperm : rules.Perm rules')
    (h : checkNames [] rules = .ok ()) : checkNames [] rules' = .ok () := by
  obtain ⟨hreserved, hnames, -⟩ := checkNames_eq_ok_iff.1 h
  refine checkNames_eq_ok_iff.2 ⟨fun rule hrule => hreserved rule (hperm.mem_iff.2 hrule), ?_,
    fun _ _ _ hnone => by cases hnone⟩
  exact (hperm.map _).nodup_iff.1 hnames

variable {σ : Equiv.Perm Nat} {rules : List Rule}

/-- The two grammars resolve names to rules that correspond. -/
theorem IsReordered.agree (h : grammar.IsReordered σ { grammar with rules })
    (options : CompileOptions) :
    Resolver.Agree σ ⟨grammar, options⟩ ⟨{ grammar with rules }, options⟩ :=
  ⟨rfl, h.simpleRule?, h.template?⟩

/-- The programs of a grammar in two orders are the same but for the numbers. -/
theorem IsReordered.isRenumbered (h : grammar.IsReordered σ { grammar with rules })
    (hperm : grammar.rules.Perm rules) (hresolves : grammar.ResolvesTo options program)
    (hresolves' : ({ grammar with rules } : Grammar).ResolvesTo options program') :
    program.IsRenumbered σ program' := by
  let resolve := Resolver.resolveRule ⟨{ grammar with rules }, options⟩
  -- both programs are the results of one resolver, for the rules in two orders
  have hold : grammar.rules.map resolve =
      (program.rules.map (CompiledRule.renumber σ)).map Except.ok := by
    rw [List.map_map]
    refine map_eq_map_of_forall₂ (hresolves.imp fun rule compiled hrule => ?_)
    have hrule' := (h.agree options).resolveRule rule
    rw [hrule] at hrule'
    exact hrule'
  have hnew : rules.map resolve = program'.rules.map Except.ok :=
    map_eq_map_of_forall₂ hresolves'
  constructor
  · -- permuted rules have permuted results
    have hresults := hperm.map resolve
    rw [hold, hnew] at hresults
    exact (List.map_perm_map_iff fun _ _ => Except.ok.inj).1 hresults
  · intro id
    have hplace : (rules.map resolve)[σ id]? = (grammar.rules.map resolve)[id]? := by
      rw [List.getElem?_map, List.getElem?_map]
      exact congrArg (Option.map resolve) (h.places id)
    rw [hold, hnew, List.getElem?_map, List.getElem?_map, List.getElem?_map] at hplace
    exact Option.map_injective (fun _ _ => Except.ok.inj) hplace

/-- A grammar compiles in every order of its rules if it does in one. -/
theorem exists_compile_of_perm (hperm : grammar.rules.Perm rules)
    (h : grammar.compile options = .ok program) :
    ∃ program', ({ grammar with rules } : Grammar).compile options = .ok program' := by
  obtain ⟨hnames, hresolves, hchecked⟩ := compile_eq_ok_iff.1 h
  obtain ⟨σ, hplaces⟩ := exists_numbering hperm
  have hreordered : grammar.IsReordered σ { grammar with rules } :=
    ⟨hplaces, (checkNames_eq_ok_iff.1 hnames).2.1⟩
  have hrules : ∀ rule ∈ rules,
      Succeeds (Resolver.resolveRule ⟨{ grammar with rules }, options⟩ rule) := by
    intro rule hrule
    obtain ⟨compiled, hcompiled⟩ :=
      exists_forall₂_iff.1 ⟨program.rules, hresolves⟩ rule (hperm.mem_iff.2 hrule)
    refine ⟨compiled.renumber σ, ?_⟩
    rw [(hreordered.agree options).resolveRule, hcompiled]
    rfl
  obtain ⟨rules', hresolves'⟩ := exists_forall₂_iff.2 hrules
  refine ⟨⟨rules'⟩, compile_eq_ok_iff.2 ⟨checkNames_perm hperm hnames, hresolves', ?_⟩⟩
  intro hreject
  exact (hreordered.isRenumbered hperm hresolves hresolves').symm.checkLeftRecursion
    (hchecked hreject)

/-- The order in which rules are declared does not matter.  A grammar compiles in one order if it
does in the other.  The programs then have the same rules under other numbers, and under these a
rule ends in the same way for every amount of fuel, in the same time at all, and is nullable for
the same kinds of literals; the rules with repetitions that may match nothing are the same. -/
theorem compile_ignores_order (grammar : Grammar) {rules : List Rule}
    (hperm : grammar.rules.Perm rules) (options : CompileOptions) (hhost : options.SeesOutcomes) :
    ((∃ program, grammar.compile options = .ok program) ↔
      ∃ program', ({ grammar with rules } : Grammar).compile options = .ok program') ∧
    ∀ program program', grammar.compile options = .ok program →
      ({ grammar with rules } : Grammar).compile options = .ok program' →
      ∃ σ : Equiv.Perm Nat,
        (∀ id, rules[σ id]? = grammar.rules[id]?) ∧
        (∀ name, program'.ruleId? name = (program.ruleId? name).map σ) ∧
        (∀ id < program.rules.length, ∀ param input start,
          (∀ fuel, (program'.call fuel (σ id) param input start).outcome? =
            (program.call fuel id param input start).outcome?) ∧
          (program'.runRule (σ id) input start).outcome? =
            (program.runRule id input start).outcome?) ∧
        (∀ name subject full, program'.execute subject (some name) full =
          program.execute subject (some name) full) ∧
        (∀ id emptyParam, program'.nullable.rule (σ id) emptyParam =
          program.nullable.rule id emptyParam) ∧
        (program'.nullableRepetitions program'.nullable).Perm
          (program.nullableRepetitions program.nullable) := by
  constructor
  · constructor
    · rintro ⟨program, hcompile⟩
      exact exists_compile_of_perm hperm hcompile
    · rintro ⟨program', hcompile⟩
      have hback : ({ grammar with rules } : Grammar).rules.Perm grammar.rules := hperm.symm
      obtain ⟨program, hprogram⟩ := exists_compile_of_perm hback hcompile
      exact ⟨program, hprogram⟩
  · intro program program' hcompile hcompile'
    obtain ⟨hnames, hresolves, -⟩ := compile_eq_ok_iff.1 hcompile
    obtain ⟨-, hresolves', -⟩ := compile_eq_ok_iff.1 hcompile'
    -- the rules keep their order up to a numbering, which the calls of both programs follow
    obtain ⟨σ, hplaces⟩ := exists_numbering hperm
    have hreordered : grammar.IsReordered σ { grammar with rules } :=
      ⟨hplaces, (checkNames_eq_ok_iff.1 hnames).2.1⟩
    have hrenumbered := hreordered.isRenumbered hperm hresolves hresolves'
    have hcalls : ∀ id < program.rules.length, ∀ fuel param input start,
        (program'.call fuel (σ id) param input start).outcome? =
          (program.call fuel id param input start).outcome? := by
      intro id hid fuel param input start
      exact hrenumbered.outcome_call (wellScoped_compile hcompile).isClosed
        (seesOutcomes_compile hhost hresolves) hid fuel param input start
    -- the fuel of a run depends on how many rules there are, so it is the same
    have hruns : ∀ id < program.rules.length, ∀ input start,
        (program'.runRule (σ id) input start).outcome? =
          (program.runRule id input start).outcome? := by
      intro id hid input start
      rw [Program.runRule, hrenumbered.fuel_eq]
      exact hcalls id hid _ none input start
    have hids : ∀ name, program'.ruleId? name = (program.ruleId? name).map σ := by
      intro name
      rw [ruleId?_compile hcompile, ruleId?_compile hcompile', hreordered.simpleRule?]
    refine ⟨σ, hplaces, hids, fun id hid param input start =>
      ⟨fun fuel => hcalls id hid fuel param input start, hruns id hid input start⟩, ?_,
      hrenumbered.nullable_agree, hrenumbered.nullableRepetitions⟩
    -- an entry is looked up by its name, and runs alike once it is found
    intro name subject full
    simp only [Program.execute, Program.executeWithEvents, Program.startRule, hids]
    rcases hname : program.ruleId? name with - | id
    · rfl
    · have hid : id < program.rules.length := (List.findIdx?_eq_some_iff_getElem.1 hname).1
      exact Program.result_congr (hruns id hid subject 0) subject full

end Grammar

/-! ### A grammar in two orders -/

namespace Reordered

/-- A match, and another one where it stops. -/
def twice : Transformer := fun inner input start =>
  (inner input start).andThen fun _ stop => inner input stop

theorem twice_seesOutcomes : twice.SeesOutcomes := by
  intro inner inner' h input start
  have hinner : ∀ start, Run.Alike Eq 0 (inner input start) (inner' input start) :=
    fun start => .of_outcome_eq (h input start)
  refine ((hinner start).andThen fun _ _ stop _ => ?_).outcome_eq
  rw [Nat.zero_add]
  exact hinner stop

def options : CompileOptions :=
  { transformers := [("twice", twice)] }

/-- Two letters, and any number after a separator.  A letter may be missing. -/
def grammar : Grammar :=
  { rules := [
      ⟨.simple "main", none, [⟨[⟨.apply "twice" (.name "letter" {}) {}, none, {}⟩,
        ⟨.template (some "more") "," {}, none, {}⟩], none, {}⟩], {}⟩,
      ⟨.simple "letter", none, [⟨[⟨.literal "x" {}, some .optional, {}⟩], none, {}⟩], {}⟩,
      ⟨.template (some "more") "s", none, [⟨[⟨.name "s" {}, none, {}⟩,
        ⟨.name "letter" {}, some .any, {}⟩], none, {}⟩], {}⟩] }

def program : Program :=
  ⟨[⟨.simple "main", false,
      [⟨[.external "twice" (some twice) (.rule 1), .template 2 ","], none⟩], {}⟩,
    ⟨.simple "letter", false, [⟨[.repeated (.literal "x") .optional], none⟩], {}⟩,
    ⟨.template (some "more") "s", true, [⟨[.param, .repeated (.rule 1) .any], none⟩], {}⟩]⟩

/-- The program of the grammar with the rules the other way round. -/
def reversed : Program :=
  ⟨[⟨.template (some "more") "s", true, [⟨[.param, .repeated (.rule 1) .any], none⟩], {}⟩,
    ⟨.simple "letter", false, [⟨[.repeated (.literal "x") .optional], none⟩], {}⟩,
    ⟨.simple "main", false,
      [⟨[.external "twice" (some twice) (.rule 1), .template 0 ","], none⟩], {}⟩]⟩

/-- Read from its last rule or from its first, the grammar is the same. -/
theorem reversed_runs_alike :
    grammar.rules.Perm grammar.rules.reverse ∧ options.SeesOutcomes ∧
    grammar.compile options = .ok program ∧
    ({ grammar with rules := grammar.rules.reverse } : Grammar).compile options = .ok reversed ∧
    (program.call 5 0 none "xx,x ".toList 0).outcome? = some (.success
      (.tuple [.str "x", .tuple [.str ",", .list [.str "x"]]]) 5) ∧
    (reversed.call 5 2 none "xx,x ".toList 0).outcome? =
      (program.call 5 0 none "xx,x ".toList 0).outcome? ∧
    (∀ subject full, reversed.execute subject (some "main") full =
      program.execute subject (some "main") full) ∧
    program.nullableRepetitions program.nullable = ["more`s`"] ∧
    (reversed.nullableRepetitions reversed.nullable).Perm
      (program.nullableRepetitions program.nullable) := by
  have hperm : grammar.rules.Perm grammar.rules.reverse := (List.reverse_perm _).symm
  have hhost : options.SeesOutcomes := by
    intro entry hentry
    rw [List.mem_singleton.1 hentry]
    exact twice_seesOutcomes
  have hcompile : grammar.compile options = .ok program := rfl
  have hcompile' : ({ grammar with rules := grammar.rules.reverse } : Grammar).compile options =
      .ok reversed := rfl
  obtain ⟨σ, -, hids, hruns, hexecute, -, hwarnings⟩ :=
    (grammar.compile_ignores_order hperm options hhost).2 program reversed hcompile hcompile'
  have hmain : σ 0 = 2 := (Option.some.inj (hids "main")).symm
  have hrun := (hruns 0 (by decide) none "xx,x ".toList 0).1 5
  rw [hmain] at hrun
  exact ⟨hperm, hhost, hcompile, hcompile', rfl, hrun, hexecute "main", by decide, hwarnings⟩

end Reordered

end Peg
