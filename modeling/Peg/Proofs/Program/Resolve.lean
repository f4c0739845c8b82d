/-
Peg/Proofs/Program/Resolve.lean

What the compiler makes is in scope.

The resolver counts the items that come before a pattern in the sequences
around it, which is how `Matcher.Scoped` counts, so the two are compared by
induction on patterns.  Rules keep their positions and heads, so a number that
was looked up in the grammar stands for a rule of the same kind in the program.

What a pattern stands for once it is resolved is read off the resolver here, one
lemma for each kind of pattern.  Other properties of resolved patterns are proved
from these lemmas, and not from the code of the resolver.
-/
import Mathlib.Data.List.Forall2
import Mathlib.Order.Lattice
import Mathlib.Order.Nat
import Peg.Program.Compile
import Peg.Proofs.Program.Scope

namespace Peg

/-! ### Actions that may fail -/

/-- An action that goes on after another one succeeds if both do. -/
theorem bind_eq_ok_iff {ε α β : Type} {action : Except ε α} {next : α → Except ε β} {result : β} :
    (action >>= next) = .ok result ↔ ∃ value, action = .ok value ∧ next value = .ok result := by
  rcases action with error | value
  · exact ⟨nofun, nofun⟩
  · exact ⟨fun h => ⟨value, rfl, h⟩, by rintro ⟨_, ⟨rfl⟩, hnext⟩; exact hnext⟩

/-- A change of the result succeeds if the action does. -/
theorem map_eq_ok_iff {ε α β : Type} {f : α → β} {action : Except ε α} {result : β} :
    action.map f = .ok result ↔ ∃ value, action = .ok value ∧ f value = result := by
  rcases action with error | value
  · exact ⟨nofun, nofun⟩
  · exact ⟨fun h => ⟨value, rfl, Except.ok.inj h⟩, by rintro ⟨_, ⟨rfl⟩, rfl⟩; rfl⟩

/-- The same action for all elements of a list. -/
theorem mapM_eq_ok_iff {ε α β : Type} {f : α → Except ε β} {values : List α} {results : List β} :
    values.mapM f = .ok results ↔
      List.Forall₂ (fun value result => f value = .ok result) values results := by
  induction values generalizing results with
  | nil =>
    rw [List.mapM_nil, List.forall₂_nil_left_iff]
    exact ⟨fun h => (Except.ok.inj h).symm, fun h => by rw [h]; rfl⟩
  | cons value values ih =>
    rw [List.mapM_cons, bind_eq_ok_iff]
    constructor
    · rintro ⟨first, hfirst, h⟩
      obtain ⟨others, hothers, h⟩ := bind_eq_ok_iff.1 h
      cases h
      exact .cons hfirst (ih.1 hothers)
    · rintro (- | @⟨_, first, _, others, hfirst, hothers⟩)
      exact ⟨first, hfirst, bind_eq_ok_iff.2 ⟨others, ih.2 hothers, rfl⟩⟩

/-- There are as many results as values. -/
theorem ne_nil_of_mapM {ε α β : Type} {f : α → Except ε β} {values : List α} {results : List β}
    (hne : values ≠ []) (h : values.mapM f = .ok results) : results ≠ [] := by
  rintro rfl
  exact hne (List.forall₂_nil_right_iff.1 (mapM_eq_ok_iff.1 h))

/-- Lists that correspond in what two functions give. -/
theorem map_eq_map_of_forall₂ {α β γ : Type} {f : α → γ} {g : β → γ} {left : List α}
    {right : List β} (h : List.Forall₂ (fun a b => f a = g b) left right) :
    left.map f = right.map g := by
  rw [← List.forall₂_eq_eq_eq]
  exact List.forall₂_map_left_iff.2 (List.forall₂_map_right_iff.2 h)

/-- Each element on the right corresponds to one on the left. -/
theorem exists_of_mem_right {α β : Type} {related : α → β → Prop} {left : List α} {right : List β}
    (h : List.Forall₂ related left right) {b : β} (hb : b ∈ right) : ∃ a ∈ left, related a b := by
  induction h with
  | nil => cases hb
  | cons hfirst _ ih =>
    rcases List.mem_cons.1 hb with rfl | hb
    · exact ⟨_, List.mem_cons_self .., hfirst⟩
    · obtain ⟨a, ha, hrelated⟩ := ih hb
      exact ⟨a, List.mem_cons_of_mem _ ha, hrelated⟩

/-! ### Mappers -/

namespace MapperExpr

mutual

/-- All captures are below a bound if the greatest one is. -/
theorem forall_captures_lt {count : Nat} : ∀ expr : MapperExpr,
    (∀ index ∈ expr.captures, index < count) ↔
      ∀ index, expr.maxCapture? = some index → index < count
  | .capture _ | .startOf _ | .endOf _ | .text | .start | .stop | .str _ => by
    simp [captures, maxCapture?]
  | .list items => by
    rw [captures, maxCapture?]
    exact forall_capturesOfAll_lt _
  | .node _ arguments => by
    rw [captures, maxCapture?]
    exact forall_capturesOfAll_lt _
  | .concat terms => by
    rw [captures, maxCapture?]
    exact forall_capturesOfAll_lt _

/-- All captures are below a number if the largest one is. -/
theorem forall_capturesOfAll_lt {count : Nat} : ∀ exprs : List MapperExpr,
    (∀ index ∈ capturesOfAll exprs, index < count) ↔
      ∀ index, maxCaptureOfAll? exprs = some index → index < count
  | [] => by simp [capturesOfAll, maxCaptureOfAll?]
  | expr :: exprs => by
    simp only [capturesOfAll, List.forall_mem_append, forall_captures_lt expr,
      forall_capturesOfAll_lt exprs, maxCaptureOfAll?]
    rcases expr.maxCapture? with - | left <;> rcases maxCaptureOfAll? exprs with - | right <;>
      simp

end

end MapperExpr

/-! ### Heads -/

/-- The kinds of the rules of a grammar. -/
def Grammar.heads (grammar : Grammar) : List RuleHead :=
  grammar.rules.map (·.head)

namespace Resolver

/-! ### Names -/

variable {resolver : Resolver} {param : Option String} {bound : List Nat} {span : Span}

/-- A simple rule that is found by its name has such a head. -/
theorem head_of_simpleRule? {grammar : Grammar} {name : String} {id : Nat}
    (h : grammar.simpleRule? name = some id) :
    ∃ head, grammar.heads[id]? = some head ∧ head.isTemplate = false := by
  obtain ⟨hid, hname, -⟩ := List.findIdx?_eq_some_iff_getElem.1 h
  refine ⟨grammar.rules[id].head, by simp [Grammar.heads, hid], ?_⟩
  rcases hhead : grammar.rules[id].head with name' | ⟨name', param⟩
  · rfl
  · simp [hhead, RuleHead.simpleName?] at hname

/-- So has a template. -/
theorem head_of_template? {grammar : Grammar} {name : Option String} {id : Nat}
    (h : grammar.template? name = some id) :
    ∃ head, grammar.heads[id]? = some head ∧ head.isTemplate = true := by
  obtain ⟨hid, hname, -⟩ := List.findIdx?_eq_some_iff_getElem.1 h
  rw [Bool.and_eq_true] at hname
  exact ⟨grammar.rules[id].head, by simp [Grammar.heads, hid], hname.1⟩

/-- A name stands for the parameter, or else for a simple rule. -/
theorem resolveName_cases {name : String} {matcher : Matcher}
    (h : resolver.resolveName param name span = .ok matcher) :
    (param = some name ∧ matcher = .param) ∨
      (param ≠ some name ∧
        ∃ id, resolver.grammar.simpleRule? name = some id ∧ matcher = .rule id) := by
  unfold resolveName at h
  split at h
  · rename_i hparam
    cases h
    exact .inl ⟨hparam, rfl⟩
  · rename_i hparam
    split at h
    · rename_i id hid
      cases h
      exact .inr ⟨hparam, id, hid, rfl⟩
    · split at h <;> cases h

/-- A template is found by its name. -/
theorem template?_of_resolveTemplate {function : Option String} {id : Nat}
    (h : resolver.resolveTemplate function span = .ok id) :
    resolver.grammar.template? function = some id := by
  unfold resolveTemplate at h
  split at h
  · rename_i id' hid
    cases h
    exact hid
  · split at h
    · cases h
    · split at h <;> cases h

/-- A variable stands for an earlier item, and for none of the sequences around. -/
theorem resolveVariable_cases {index : Nat} {matcher : Matcher}
    (h : resolveVariable bound index span = .ok matcher) :
    matcher = .variable index ∧ index < bound.headD 0 ∧ ∀ outer ∈ bound.tail, outer ≤ index := by
  unfold resolveVariable at h
  split at h
  · cases h
  · split at h
    · cases h
    · rename_i hlt hany
      cases h
      refine ⟨rfl, by omega, fun outer houter => ?_⟩
      by_contra hless
      exact hany (List.any_eq_true.2 ⟨outer, houter, by simpa using hless⟩)

/-- A built-in function makes a matcher with the scope of its body. -/
theorem builtin?_scoped {heads : List RuleHead} {inTemplate : Bool} {function : String}
    {make : Matcher → Matcher} (h : builtin? function = some make) (inner : Matcher) :
    (make inner).Scoped heads inTemplate bound ↔ inner.Scoped heads inTemplate bound := by
  unfold builtin? at h
  split at h <;> cases h <;> rfl

/-- A repetition is in scope like its body. -/
theorem repeatMatcher_scoped {heads : List RuleHead} {inTemplate : Bool}
    (repetition : Option Repetition) {matcher : Matcher}
    (h : matcher.Scoped heads inTemplate bound) :
    (repeatMatcher repetition matcher).Scoped heads inTemplate bound := by
  cases repetition <;> exact h

/-- Only items of the group are marked. -/
theorem importantIndexes_lt {items : List GroupItem} {index : Nat}
    (h : index ∈ importantIndexes items) : index < items.length := by
  unfold importantIndexes at h
  obtain ⟨⟨item, index'⟩, hmem, rfl⟩ := List.mem_map.1 h
  have := (List.mem_zipIdx (List.mem_filter.1 hmem).1).2.1
  omega

/-! ### What patterns stand for -/

/-- A regular expression stands for its compiled form, with its description. -/
theorem resolveRegex_cases {source flags : String} {matcher : Matcher}
    (h : resolver.resolvePattern param bound (.regex source flags span) = .ok matcher) :
    ∃ expression, Regex.pattern? source flags resolver.options.dialect = some expression ∧
      matcher = .regex expression (Regex.describe source flags) := by
  rw [resolvePattern] at h
  split at h
  · rename_i expression hexpression
    cases h
    exact ⟨expression, hexpression, rfl⟩
  · cases h

/-- An instance stands for the template with its name. -/
theorem resolveInstance_cases {function : Option String} {argument : String} {matcher : Matcher}
    (h : resolver.resolvePattern param bound (.template function argument span) = .ok matcher) :
    ∃ id, resolver.grammar.template? function = some id ∧ matcher = .template id argument := by
  rw [resolvePattern] at h
  obtain ⟨id, hid, h⟩ := bind_eq_ok_iff.1 h
  cases h
  exact ⟨id, template?_of_resolveTemplate hid, rfl⟩

/-- What a function that is applied to a pattern stands for: a combinator, else a template, else a
function of the host. -/
inductive Applied (resolver : Resolver) (param : Option String) (bound : List Nat)
    (function : String) (span : Span) : Pattern → Matcher → Prop where
  | builtin {make : Matcher → Matcher} {inner : Pattern} {body : Matcher}
      (hmake : builtin? function = some make)
      (hbody : resolver.resolvePattern param bound inner = .ok body) :
      Applied resolver param bound function span inner (make body)
  | template {id : Nat} {argument : String} {inner : Span} (hbuiltin : builtin? function = none)
      (hid : resolver.grammar.template? (some function) = some id) :
      Applied resolver param bound function span (.literal argument inner) (.template id argument)
  | external {transformer : Option Transformer} {inner : Pattern} {body : Matcher}
      (hbuiltin : builtin? function = none)
      (htemplate : resolver.grammar.template? (some function) = none)
      (htransformer : resolver.resolveTransformer function span = .ok transformer)
      (hbody : resolver.resolvePattern param bound inner = .ok body) :
      Applied resolver param bound function span inner (.external function transformer body)

/-- An application is resolved in one of these ways. -/
theorem applied_of_resolvePattern {function : String} {inner : Pattern} {matcher : Matcher}
    (h : resolver.resolvePattern param bound (.apply function inner span) = .ok matcher) :
    resolver.Applied param bound function span inner matcher := by
  rw [resolvePattern] at h
  split at h
  · rename_i make hmake
    obtain ⟨body, hbody, h⟩ := bind_eq_ok_iff.1 h
    cases h
    exact .builtin hmake hbody
  · rename_i hbuiltin
    split at h
    · rename_i id hid
      split at h
      · cases h
        exact .template hbuiltin hid
      · cases h
    · rename_i htemplate
      split at h
      · cases h
      · obtain ⟨transformer, htransformer, h⟩ := bind_eq_ok_iff.1 h
        obtain ⟨body, hbody, h⟩ := bind_eq_ok_iff.1 h
        cases h
        exact .external hbuiltin htemplate htransformer hbody

/-- A group stands for the group of what its members stand for. -/
theorem resolveGroup_cases {items : List GroupItem} {matcher : Matcher}
    (h : resolver.resolvePattern param bound (.group items span) = .ok matcher) :
    ∃ matchers, resolver.resolveGroupItems param bound 0 items = .ok matchers ∧
      matcher = .group matchers (importantIndexes items) := by
  rw [resolvePattern] at h
  obtain ⟨matchers, hmatchers, h⟩ := bind_eq_ok_iff.1 h
  cases h
  exact ⟨matchers, hmatchers, rfl⟩

/-! ### Patterns -/

mutual

/-- The matcher for a pattern is in scope, by induction on patterns along with items and groups. -/
theorem resolvePattern_scoped {bound : List Nat} : ∀ {pattern : Pattern} {matcher : Matcher},
    resolver.resolvePattern param bound pattern = .ok matcher →
    matcher.Scoped resolver.grammar.heads param.isSome bound
  | .literal _ _, _, h | .any _, _, h => by
    cases h
    trivial
  | .regex source flags span, _, h => by
    obtain ⟨expression, -, rfl⟩ := resolveRegex_cases h
    trivial
  | .name name span, _, h => by
    rcases resolveName_cases h with ⟨rfl, rfl⟩ | ⟨-, id, hid, rfl⟩
    · rfl
    · exact head_of_simpleRule? hid
  | .variable index span, _, h => by
    obtain ⟨rfl, hlt, houter⟩ := resolveVariable_cases h
    exact ⟨hlt, houter⟩
  | .template function body span, _, h => by
    obtain ⟨id, hid, rfl⟩ := resolveInstance_cases h
    exact head_of_template? hid
  | .apply function inner span, matcher, h => by
    cases applied_of_resolvePattern h with
    | builtin hmake hbody => exact (builtin?_scoped hmake _).2 (resolvePattern_scoped hbody)
    | template hbuiltin hid => exact head_of_template? hid
    | @external transformer _ body _ _ _ hbody =>
      show body.Scoped _ _ _
      exact resolvePattern_scoped hbody
  | .group items span, _, h => by
    obtain ⟨matchers, hmatchers, rfl⟩ := resolveGroup_cases h
    obtain ⟨hscoped, hlength⟩ := resolveGroupItems_scoped hmatchers
    exact ⟨hscoped, fun index hindex => hlength ▸ importantIndexes_lt hindex⟩

theorem resolveGroupItem_scoped {bound : List Nat} : ∀ {item : GroupItem} {matcher : Matcher},
    resolver.resolveGroupItem param bound item = .ok matcher →
    matcher.Scoped resolver.grammar.heads param.isSome bound
  | .mk _ pattern repetition _, _, h => by
    rw [resolveGroupItem] at h
    obtain ⟨body, hbody, h⟩ := bind_eq_ok_iff.1 h
    cases h
    exact repeatMatcher_scoped repetition (resolvePattern_scoped hbody)

theorem resolveGroupItems_scoped {outer : List Nat} : ∀ {items : List GroupItem} {index : Nat}
    {matchers : List Matcher}, resolver.resolveGroupItems param outer index items = .ok matchers →
    ScopedFrom resolver.grammar.heads param.isSome outer index matchers ∧
      matchers.length = items.length
  | [], _, _, h => by
    cases h
    exact ⟨trivial, rfl⟩
  | item :: items, index, _, h => by
    rw [resolveGroupItems] at h
    obtain ⟨matcher, hmatcher, h⟩ := bind_eq_ok_iff.1 h
    obtain ⟨matchers, hmatchers, h⟩ := bind_eq_ok_iff.1 h
    cases h
    obtain ⟨hscoped, hlength⟩ := resolveGroupItems_scoped hmatchers
    exact ⟨⟨resolveGroupItem_scoped hmatcher, hscoped⟩, by rw [List.length_cons, hlength]; rfl⟩

end

/-! ### Alternatives and rules -/

/-- A mapper is an expression over the items before it. -/
theorem resolveMapper_eq_ok_iff {count : Nat} {mapper : MapperCode} {expr : MapperExpr} :
    resolveMapper count mapper = .ok expr ↔
      MapperExpr.parse mapper.code = .ok expr ∧ ∀ index ∈ expr.captures, index < count := by
  unfold resolveMapper
  rcases MapperExpr.parse mapper.code with error | parsed
  · simp
  · rw [MapperExpr.forall_captures_lt]
    dsimp only
    rcases hgreatest : parsed.maxCapture? with - | greatest
    · constructor
      · rintro ⟨rfl⟩
        exact ⟨rfl, by simp [hgreatest]⟩
      · rintro ⟨⟨rfl⟩, -⟩
        rfl
    · dsimp only
      split
      · rename_i hle
        constructor
        · intro h
          cases h
        · rintro ⟨⟨rfl⟩, h⟩
          exact absurd (h greatest hgreatest) (Nat.not_lt.2 hle)
      · rename_i hlt
        constructor
        · rintro ⟨rfl⟩
          refine ⟨rfl, fun index hindex => ?_⟩
          rw [hgreatest, Option.some.injEq] at hindex
          omega
        · rintro ⟨⟨rfl⟩, -⟩
          rfl

/-- Whatever becomes of the mapper, the items are those that the items resolve to. -/
theorem resolveAlternative_items {alternative : Alternative} {compiled : CompiledAlternative}
    (h : resolver.resolveAlternative param alternative = .ok compiled) :
    resolver.resolveItems param alternative.items = .ok compiled.items := by
  obtain ⟨items, hitems, h⟩ := bind_eq_ok_iff.1 h
  split at h
  · split at h
    · obtain ⟨expr, -, h⟩ := bind_eq_ok_iff.1 h
      cases h
      exact hitems
    · cases h
      exact hitems
  · cases h
    exact hitems

/-- An alternative is in scope with its mapper. -/
theorem resolveAlternative_scoped {alternative : Alternative} {compiled : CompiledAlternative}
    (h : resolver.resolveAlternative param alternative = .ok compiled) :
    compiled.Scoped resolver.grammar.heads param.isSome := by
  obtain ⟨items, hitems, h⟩ := bind_eq_ok_iff.1 h
  obtain ⟨hscoped, -⟩ := resolveGroupItems_scoped hitems
  split at h
  · split at h
    · obtain ⟨expr, hexpr, h⟩ := bind_eq_ok_iff.1 h
      cases h
      refine ⟨hscoped, fun mapper hmapper => ?_⟩
      cases hmapper
      exact (resolveMapper_eq_ok_iff.1 hexpr).2
    · cases h
      exact ⟨hscoped, fun _ hmapper => by cases hmapper⟩
  · cases h
    exact ⟨hscoped, fun _ hmapper => by cases hmapper⟩

/-- A rule resolves to its alternatives, one by one. -/
theorem resolveRule_eq_ok_iff {rule : Rule} {compiled : CompiledRule} :
    resolver.resolveRule rule = .ok compiled ↔ ∃ alternatives,
      List.Forall₂ (fun alternative compiled =>
        resolver.resolveAlternative rule.head.param? alternative = .ok compiled)
        rule.alternatives alternatives ∧
      compiled = ⟨rule.head, rule.head.isTemplate && resolver.options.templateWhitespace,
        alternatives, rule.span⟩ := by
  rw [resolveRule, bind_eq_ok_iff]
  constructor
  · rintro ⟨alternatives, halternatives, h⟩
    exact ⟨alternatives, mapM_eq_ok_iff.1 halternatives, (Except.ok.inj h).symm⟩
  · rintro ⟨alternatives, halternatives, rfl⟩
    exact ⟨alternatives, mapM_eq_ok_iff.2 halternatives, rfl⟩

/-- Whatever is logged, the rules resolve one by one. -/
theorem resolveRules_eq_ok_iff {rules : List Rule} {compiled : List CompiledRule} :
    (resolver.resolveRules rules).2 = .ok compiled ↔
      List.Forall₂ (fun rule compiled => resolver.resolveRule rule = .ok compiled)
        rules compiled := by
  induction rules generalizing compiled with
  | nil =>
    rw [List.forall₂_nil_left_iff]
    exact ⟨fun h => (Except.ok.inj h).symm, fun h => by rw [h]; rfl⟩
  | cons rule rules ih =>
    rw [resolveRules]
    rcases hrule : resolver.resolveRule rule with error | first
    · constructor
      · intro h
        cases h
      · rintro (- | @⟨_, first, _, others, hfirst, -⟩)
        rw [hrule] at hfirst
        cases hfirst
    · dsimp only
      rw [map_eq_ok_iff]
      constructor
      · rintro ⟨others, hothers, rfl⟩
        exact .cons hrule (ih.1 hothers)
      · rintro (- | @⟨_, first', _, others, hfirst, hothers⟩)
        rw [hrule] at hfirst
        cases hfirst
        exact ⟨others, ih.2 hothers, rfl⟩

end Resolver

/-! ### Programs -/

namespace Grammar

variable {grammar : Grammar} {options : CompileOptions} {program : Program}

/-- What has to go well for a grammar to compile. -/
theorem compile_eq_ok_iff :
    grammar.compile options = .ok program ↔ checkNames [] grammar.rules = .ok () ∧
      List.Forall₂ (fun rule compiled =>
        Resolver.resolveRule ⟨grammar, options⟩ rule = .ok compiled) grammar.rules program.rules ∧
      (options.rejectLeftRecursion = true →
        program.checkLeftRecursion program.nullable = .ok ()) := by
  obtain ⟨rules⟩ := program
  rw [← Resolver.resolveRules_eq_ok_iff]
  unfold compile compileWithLog
  rcases checkNames [] grammar.rules with error | ⟨⟨⟩⟩
  · simp
  · rcases Resolver.resolveRules ⟨grammar, options⟩ grammar.rules with ⟨log, error | resolved⟩
    · simp
    · unfold finishCompilation
      cases options.rejectLeftRecursion with
      | false => simp [Program.mk.injEq]
      | true =>
        rcases hcheck : Program.checkLeftRecursion ⟨resolved⟩ (Program.nullable ⟨resolved⟩) with
          error | ⟨⟨⟩⟩
        · simp only [if_true, hcheck]
          constructor
          · intro h
            cases h
          · rintro ⟨-, ⟨rfl⟩, h⟩
            rw [hcheck] at h
            cases h trivial
        · simp only [if_true, hcheck]
          constructor
          · rintro ⟨rfl⟩
            exact ⟨trivial, rfl, fun _ => hcheck⟩
          · rintro ⟨-, ⟨rfl⟩, -⟩
            rfl

/-- The rules of a program have the heads they have in the grammar. -/
theorem heads_compile (h : grammar.compile options = .ok program) :
    program.heads = grammar.heads := by
  obtain ⟨-, hrules, -⟩ := compile_eq_ok_iff.1 h
  refine map_eq_map_of_forall₂ (List.Forall₂.flip (hrules.imp fun rule compiled hrule => ?_))
  obtain ⟨alternatives, -, rfl⟩ := Resolver.resolveRule_eq_ok_iff.1 hrule
  rfl

/-- Templates are the rules with a parameter. -/
theorem isSome_param? (head : RuleHead) : head.param?.isSome = head.isTemplate := by
  cases head <;> rfl

/-- Grammars compile to well-scoped programs. -/
theorem wellScoped_compile (h : grammar.compile options = .ok program) : program.WellScoped := by
  have hheads := heads_compile h
  obtain ⟨-, hrules, -⟩ := compile_eq_ok_iff.1 h
  intro compiled hcompiled alternative halternative
  obtain ⟨rule, hrule, hresolved⟩ := exists_of_mem_right hrules hcompiled
  obtain ⟨alternatives, halternatives, rfl⟩ := Resolver.resolveRule_eq_ok_iff.1 hresolved
  obtain ⟨source, -, hsource⟩ := exists_of_mem_right halternatives halternative
  rw [hheads, ← isSome_param?]
  exact Resolver.resolveAlternative_scoped hsource

end Grammar

end Peg
