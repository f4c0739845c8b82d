/-
Peg/Proofs/Program/Instance.lean

Templates are macros.

A template is run with the literal it is instantiated with in the scope.  The
same can be had without a scope: copy the rule, write the literal wherever the
parameter stands (`CompiledRule.instantiate`), and add the copy to the program
as a simple rule (`Program.withInstance`).  The equation behind it is

    matcher fuel ⟨param, captures⟩ (m.instantiate argument)
      = matcher fuel ⟨some argument, captures⟩ m

with the same fuel on both sides and whatever parameter on the left.  Calls of
other rules leave the scope behind, so they are not touched by the copy, and
that is why a template may instantiate itself.  Functions of the host are
given equal matchings and need no assumption.

The analysis of nullable rules sees the copy in the same way: what it knows of
the literal, whether it is empty, is what decides between the two tables.

Adding a rule changes nothing for the rules that were there, as long as none
of them calls a rule that does not exist.
-/
import Peg.Proofs.Program.Fixpoint
import Peg.Program.Run
import Peg.Proofs.Run.Ensures

namespace Peg

/-! ### Instances -/

mutual

/-- The matcher with a literal in place of the parameter. -/
def Matcher.instantiate (argument : String) : Matcher → Matcher
  | .param => .literal argument
  | .negative inner => .negative (inner.instantiate argument)
  | .look inner => .look (inner.instantiate argument)
  | .attempt inner => .attempt (inner.instantiate argument)
  | .backtrack inner => .backtrack (inner.instantiate argument)
  | .external name transformer inner => .external name transformer (inner.instantiate argument)
  | .group items important => .group (instantiateAll argument items) important
  | .repeated inner repetition => .repeated (inner.instantiate argument) repetition
  | .literal string => .literal string
  | .regex expression description => .regex expression description
  | .any => .any
  | .rule id => .rule id
  | .variable index => .variable index
  | .template id other => .template id other

/-- The matchers of a sequence with a literal in place of the parameter. -/
def instantiateAll (argument : String) : List Matcher → List Matcher
  | [] => []
  | item :: items => item.instantiate argument :: instantiateAll argument items

end

@[simp] theorem instantiateAll_eq_map (argument : String) (items : List Matcher) :
    instantiateAll argument items = items.map (Matcher.instantiate argument) := by
  induction items with
  | nil => rfl
  | cons item items ih => rw [instantiateAll, ih, List.map_cons]

/-- The alternative with a literal in place of the parameter. -/
def CompiledAlternative.instantiate (argument : String) (alternative : CompiledAlternative) :
    CompiledAlternative :=
  { alternative with items := instantiateAll argument alternative.items }

/-- A template as a simple rule, with a literal in place of the parameter. -/
def CompiledRule.instantiate (rule : CompiledRule) (name argument : String) : CompiledRule :=
  { rule with
    head := .simple name
    alternatives := rule.alternatives.map (CompiledAlternative.instantiate argument) }

/-- A program with one more rule, an instance of a template. -/
def Program.withInstance (program : Program) (rule : CompiledRule) (name argument : String) :
    Program :=
  ⟨program.rules ++ [rule.instantiate name argument]⟩

/-! ### Runs -/

namespace Program

variable {program : Program} {step : Step} {argument : String} {param : Option String}

theorem matchItems_instantiate {items : List Matcher}
    (h : ∀ item ∈ items, ∀ captures,
      step ⟨param, captures⟩ (item.instantiate argument) = step ⟨some argument, captures⟩ item) :
    matchItems step (instantiateAll argument items) param =
      matchItems step items (some argument) := by
  rw [instantiateAll_eq_map, matchItems, matchItems, List.map_map]
  have hitems : items.map ((fun item (captures : List Capture) input start =>
      Run.andThen (step ⟨param, captures⟩ item input start) fun value stop =>
        Run.done (.success (⟨value, ⟨start, stop⟩⟩ : Capture) stop)) ∘
          Matcher.instantiate argument) =
      items.map fun item captures input start =>
        Run.andThen (step ⟨some argument, captures⟩ item input start) fun value stop =>
          Run.done (.success ⟨value, ⟨start, stop⟩⟩ stop) := by
    apply List.map_congr_left
    intro item hitem
    funext captures input start
    show Run.andThen (step ⟨param, captures⟩ (item.instantiate argument) input start) _ = _
    rw [h item hitem captures]
  rw [hitems]

theorem matchAlternative_instantiate {alternative : CompiledAlternative}
    (h : ∀ item ∈ alternative.items, ∀ captures,
      step ⟨param, captures⟩ (item.instantiate argument) = step ⟨some argument, captures⟩ item) :
    matchAlternative step (alternative.instantiate argument) param =
      matchAlternative step alternative (some argument) := by
  funext input start
  unfold matchAlternative
  show Run.andThen (matchItems step (instantiateAll argument alternative.items) param input
    start) _ = _
  rw [matchItems_instantiate h]
  rfl

/-- Writing the literal in place of the parameter does the same as having it in the scope. -/
theorem matcher_instantiate (fuel : Nat) (argument : String) (param : Option String)
    (captures : List Capture) (m : Matcher) :
    program.matcher fuel ⟨param, captures⟩ (m.instantiate argument) =
      program.matcher fuel ⟨some argument, captures⟩ m := by
  induction fuel generalizing captures m with
  | zero => rfl
  | succ fuel ih =>
    funext input start
    cases m with
    | negative inner | look inner | attempt inner | backtrack inner =>
      simp only [Matcher.instantiate, matcher, ih]
    | external name transformer inner =>
      cases transformer with
      | none => rfl
      | some transformer => simp only [Matcher.instantiate, matcher, ih]
    | group items important =>
      simp only [Matcher.instantiate, matcher]
      rw [matchItems_instantiate fun item _ captures => ih captures item]
    | repeated inner repetition =>
      cases repetition <;> simp only [Matcher.instantiate, matcher, ih]
    -- a call starts a scope of its own, and the parameter itself reads the literal
    | _ => rfl

/-- The instance of a template ends like the template.  Only the events tell them apart: they hold
the number of the rule and the literal. -/
theorem outcome?_matchRule_instantiate {id copy : Nat} {rule : CompiledRule} {name : String}
    (hrule : program.rules[id]? = some rule)
    (hcopy : program.rules[copy]? = some (rule.instantiate name argument)) (fuel : Nat)
    (param : Option String) (input : List Char) (start : Nat) :
    (program.matchRule (program.matcher fuel) copy param input start).outcome? =
      (program.matchRule (program.matcher fuel) id (some argument) input start).outcome? := by
  have halternatives : (rule.instantiate name argument).alternatives.map (fun alternative =>
      matchAlternative (program.matcher fuel) alternative param) =
      rule.alternatives.map fun alternative =>
        matchAlternative (program.matcher fuel) alternative (some argument) := by
    rw [CompiledRule.instantiate, List.map_map]
    apply List.map_congr_left
    intro alternative _
    exact matchAlternative_instantiate fun item _ captures =>
      matcher_instantiate fuel argument param captures item
  simp only [matchRule, hrule, hcopy, halternatives]
  rcases Combinator.choice (rule.alternatives.map fun alternative =>
    matchAlternative (program.matcher fuel) alternative (some argument)) input start with
    - | ⟨events, outcome⟩
  · rfl
  · -- the flag that decides about blanks is copied along with the alternatives
    cases outcome <;> rfl

/-! ### Nullable rules -/

mutual

/-- An instance is nullable if the matcher is for its kind of literal. -/
theorem isNullable_instantiate (nullable : Nullable) (argument : String) (emptyParam : Bool) :
    ∀ m : Matcher, (m.instantiate argument).isNullable nullable emptyParam =
      m.isNullable nullable argument.isEmpty
  | .param | .literal _ | .regex _ _ | .any | .rule _ | .variable _ | .template _ _
  | .negative _ | .look _ | .backtrack _ | .external _ _ _ => rfl
  | .attempt inner => isNullable_instantiate nullable argument emptyParam inner
  | .group items _ => allNullable_instantiate nullable argument emptyParam items
  | .repeated inner repetition => by
    cases repetition with
    | optional => simp only [Matcher.instantiate, Matcher.isNullable]
    | any => simp only [Matcher.instantiate, Matcher.isNullable]
    | oneOrMore =>
      simp only [Matcher.instantiate, Matcher.isNullable]
      exact isNullable_instantiate nullable argument emptyParam inner

theorem allNullable_instantiate (nullable : Nullable) (argument : String) (emptyParam : Bool) :
    ∀ items : List Matcher, allNullable nullable emptyParam (instantiateAll argument items) =
      allNullable nullable argument.isEmpty items
  | [] => rfl
  | item :: items => by
    rw [instantiateAll, allNullable, allNullable,
      isNullable_instantiate nullable argument emptyParam item,
      allNullable_instantiate nullable argument emptyParam items]

end

theorem rule_isNullable_instantiate (rule : CompiledRule) (nullable : Nullable)
    (name argument : String) (emptyParam : Bool) :
    (rule.instantiate name argument).isNullable nullable emptyParam =
      rule.isNullable nullable argument.isEmpty := by
  rw [CompiledRule.isNullable, CompiledRule.isNullable, CompiledRule.instantiate, List.any_map]
  apply congrArg (rule.alternatives.any ·)
  funext alternative
  exact allNullable_instantiate nullable argument emptyParam alternative.items

/-! ### More rules -/

/-- Only rules that exist are called. -/
def IsClosed (program : Program) : Prop :=
  program.Every (Matcher.CallsOnly (· < program.rules.length))

instance (program : Program) : Decidable program.IsClosed :=
  inferInstanceAs (Decidable (Program.Every _ program))

section Extended

variable {later : List CompiledRule}

theorem getElem?_extended {id : Nat} (hid : id < program.rules.length) :
    (⟨program.rules ++ later⟩ : Program).rules[id]? = program.rules[id]? :=
  List.getElem?_append_left hid

/-- Rules that are added to a closed program do not take part in its runs. -/
theorem matcher_extended (hclosed : program.IsClosed) (fuel : Nat) (scope : Scope) {m : Matcher}
    (hm : m.Every (Matcher.CallsOnly (· < program.rules.length))) :
    (⟨program.rules ++ later⟩ : Program).matcher fuel scope m = program.matcher fuel scope m := by
  -- the induction is on fuel: only calls of rules look at the program, and they use up fuel
  induction fuel generalizing scope m with
  | zero => rfl
  | succ fuel ih =>
    have hitems : ∀ (items : List Matcher) (param : Option String),
        (∀ item ∈ items, item.Every (Matcher.CallsOnly (· < program.rules.length))) →
        matchItems ((⟨program.rules ++ later⟩ : Program).matcher fuel) items param =
          matchItems (program.matcher fuel) items param := by
      intro items param hitems
      unfold matchItems
      congr 1
      apply List.map_congr_left
      intro item hitem
      funext captures input start
      rw [ih ⟨param, captures⟩ (hitems item hitem)]
    have hcall : ∀ (id : Nat) (param : Option String), id < program.rules.length →
        (⟨program.rules ++ later⟩ : Program).matchRule
          ((⟨program.rules ++ later⟩ : Program).matcher fuel) id param =
        program.matchRule (program.matcher fuel) id param := by
      intro id param hid
      funext input start
      rcases hrule : program.rules[id]? with - | rule
      · -- a matcher of the program calls no rule that is not there
        exact absurd hid (Nat.not_lt.2 (List.getElem?_eq_none_iff.1 hrule))
      · have halternatives : rule.alternatives.map (fun alternative => matchAlternative
            ((⟨program.rules ++ later⟩ : Program).matcher fuel) alternative param) =
            rule.alternatives.map fun alternative =>
              matchAlternative (program.matcher fuel) alternative param := by
          apply List.map_congr_left
          intro alternative halternative
          funext input start
          unfold matchAlternative
          rw [hitems alternative.items param fun item hitem =>
            Program.Every.ofItem hclosed hrule halternative hitem]
        simp only [matchRule, getElem?_extended hid, hrule, halternatives]
    funext input start
    cases m with
    | rule id => exact congrFun (congrFun (hcall id none hm.self) input) start
    | template id argument => exact congrFun (congrFun (hcall id (some argument) hm.self) input) start
    | negative inner => simp only [matcher, ih scope hm.negative]
    | look inner => simp only [matcher, ih scope hm.look]
    | attempt inner => simp only [matcher, ih scope hm.attempt]
    | backtrack inner => simp only [matcher, ih scope hm.backtrack]
    | external name transformer inner =>
      cases transformer with
      | none => rfl
      | some transformer => simp only [matcher, ih scope hm.external]
    | group items important => simp only [matcher, hitems items scope.param hm.group]
    | repeated inner repetition =>
      cases repetition <;> simp only [matcher, ih scope hm.repeated]
    | _ => rfl

/-- The entries of rules of a closed program stay as they are when rules are added. -/
theorem nullable_rule_extended (hclosed : program.IsClosed) {id : Nat}
    (hid : id < program.rules.length) (emptyParam : Bool) :
    (⟨program.rules ++ later⟩ : Program).nullable.rule id emptyParam =
      program.nullable.rule id emptyParam := by
  rw [Bool.eq_iff_iff]
  constructor
  · -- the entries of the program, with all the entries of the new rules, are closed
    let all : List Bool := List.replicate later.length true
    let tables : Nullable := ⟨program.nullable.rules ++ all, program.nullable.emptyParam ++ all⟩
    obtain ⟨hrules, hempty⟩ := program.nullable_covers
    have hold : ∀ id, id < program.rules.length → ∀ emptyParam,
        tables.rule id emptyParam = program.nullable.rule id emptyParam := by
      intro id hid emptyParam
      cases emptyParam <;> simp [tables, Nullable.rule, List.getElem?_append, hrules, hempty, hid]
    have hnew : ∀ id, program.rules.length ≤ id → id < (program.rules ++ later).length →
        ∀ emptyParam, tables.rule id emptyParam = true := by
      intro id hle hlt emptyParam
      have hlater : id - program.rules.length < later.length := by
        rw [List.length_append] at hlt
        omega
      cases emptyParam <;>
        simp [tables, all, Nullable.rule, List.getElem?_append, hrules, hempty,
          Nat.not_lt.2 hle, hlater]
    have htables : Nullable.Closed ⟨program.rules ++ later⟩ tables := by
      intro id rule emptyParam hrule hnullable
      by_cases hid : id < program.rules.length
      · rw [getElem?_extended hid] at hrule
        have hback : Nullable.Below (· < program.rules.length) tables program.nullable :=
          fun id hid emptyParam h => by rwa [hold id hid] at h
        rw [hold id hid]
        refine program.nullable_closed id rule emptyParam hrule (hback.rule ?_ hnullable)
        exact hclosed rule (List.mem_of_getElem? hrule)
      · exact hnew id (Nat.not_lt.1 hid) (List.getElem?_eq_some_iff.1 hrule).1 emptyParam
    intro h
    rw [← hold id hid]
    exact nullable_below htables id trivial emptyParam h
  · -- the entries of the extended program are closed for the rules of the program
    have hentries : Nullable.Closed program (⟨program.rules ++ later⟩ : Program).nullable := by
      intro id rule emptyParam hrule hnullable
      have hid := (List.getElem?_eq_some_iff.1 hrule).1
      refine nullable_closed _ id rule emptyParam ?_ hnullable
      rw [getElem?_extended hid, hrule]
    exact nullable_below hentries id trivial emptyParam

end Extended

/-! ### Templates and their instances -/

/-- A template that is instantiated with a literal is a macro.  Applying it and calling its
instance, a simple rule with the literal in place of the parameter, end in the same way with the
same fuel, at every offset of every text.  The instance has the entry of the template for its kind
of literal in the tables of nullable rules.  If the program only calls rules that exist, then its
own runs and entries are not changed by adding the instance. -/
theorem template_is_macro (program : Program) {id : Nat} {rule : CompiledRule}
    (hrule : program.rules[id]? = some rule) (name argument : String) :
    let copy := program.rules.length
    let extended := program.withInstance rule name argument
    (∀ fuel scope scope' input start,
      (extended.matcher fuel scope (.rule copy) input start).outcome? =
        (extended.matcher fuel scope' (.template id argument) input start).outcome?) ∧
    (∀ emptyParam, extended.nullable.rule copy emptyParam =
      extended.nullable.rule id argument.isEmpty) ∧
    (program.IsClosed →
      (∀ fuel scope scope' input start,
        (extended.matcher fuel scope (.rule copy) input start).outcome? =
          (program.matcher fuel scope' (.template id argument) input start).outcome?) ∧
      (∀ emptyParam, extended.nullable.rule copy emptyParam =
        program.nullable.rule id argument.isEmpty) ∧
      (∀ fuel scope (m : Matcher), m.Every (Matcher.CallsOnly (· < copy)) →
        extended.matcher fuel scope m = program.matcher fuel scope m) ∧
      ∀ other < copy, ∀ emptyParam,
        extended.nullable.rule other emptyParam = program.nullable.rule other emptyParam) := by
  intro copy extended
  -- the copy comes last, so the template keeps its number
  have hid : id < program.rules.length := (List.getElem?_eq_some_iff.1 hrule).1
  have hold : extended.rules[id]? = some rule := (getElem?_extended hid).trans hrule
  have hcopy : extended.rules[copy]? = some (rule.instantiate name argument) :=
    List.getElem?_concat_length
  have hruns : ∀ fuel scope scope' input start,
      (extended.matcher fuel scope (.rule copy) input start).outcome? =
        (extended.matcher fuel scope' (.template id argument) input start).outcome? := by
    intro fuel scope scope' input start
    cases fuel with
    | zero => rfl
    | succ fuel => exact outcome?_matchRule_instantiate hold hcopy fuel none input start
  -- both entries are what the bodies of one rule give for the same kind of parameter
  have hentry : ∀ emptyParam, extended.nullable.rule copy emptyParam =
      extended.nullable.rule id argument.isEmpty := by
    intro emptyParam
    calc extended.nullable.rule copy emptyParam
        = (rule.instantiate name argument).isNullable extended.nullable emptyParam :=
          nullable_rule_eq hcopy emptyParam
      _ = rule.isNullable extended.nullable argument.isEmpty :=
          rule_isNullable_instantiate rule extended.nullable name argument emptyParam
      _ = extended.nullable.rule id argument.isEmpty :=
          (nullable_rule_eq hold argument.isEmpty).symm
  refine ⟨hruns, hentry, fun hclosed => ⟨?_, ?_, ?_, ?_⟩⟩
  · intro fuel scope scope' input start
    -- a call of the template is one that the program already has, so the extension does not matter
    have htemplate : (Matcher.template id argument).Every
        (Matcher.CallsOnly (· < program.rules.length)) := by
      intro part hpart
      rw [List.mem_singleton.1 hpart]
      exact hid
    rw [hruns fuel scope scope' input start]
    exact congrArg Run.outcome?
      (congrFun (congrFun (matcher_extended hclosed fuel scope' htemplate) input) start)
  · intro emptyParam
    rw [hentry emptyParam]
    exact nullable_rule_extended hclosed hid argument.isEmpty
  · intro fuel scope m hm
    exact matcher_extended hclosed fuel scope hm
  · intro other hother emptyParam
    exact nullable_rule_extended hclosed hother emptyParam

end Program

/-! ### Separated lists -/

namespace Separated

/-- Letters with a separator between them, or a list of the other kind in parentheses. -/
def list : CompiledRule :=
  ⟨.template (some "list") "separator", true,
    [⟨[.literal "(", .template 1 ";", .literal ")"], some (.capture 1)⟩,
      ⟨[.literal "x", .repeated (.group [.param, .literal "x"] [1]) .any], none⟩], {}⟩

def program : Program :=
  ⟨[⟨.simple "main", false, [⟨[.template 1 ","], none⟩], {}⟩, list]⟩

/-- The instance for commas, which instantiates the template for semicolons. -/
theorem commas_is_list : program.rules[1]? = some list ∧ program.IsClosed ∧
    (program.matcher 6 ⟨none, []⟩ (.template 1 ",") "(x;x) ".toList 0).outcome? =
      some (.success (.tuple [.str "x", .list [.str "x"]]) 6) ∧
    ((program.withInstance list "commas" ",").matcher 6 ⟨none, []⟩ (.rule 2)
      "(x;x) ".toList 0).outcome? =
      (program.matcher 6 ⟨none, []⟩ (.template 1 ",") "(x;x) ".toList 0).outcome? ∧
    (program.withInstance list "commas" ",").nullable.rule 2 false =
      program.nullable.rule 1 false := by
  have hlist : program.rules[1]? = some list := rfl
  have hclosed : program.IsClosed := by decide
  obtain ⟨-, -, hprogram⟩ := Program.template_is_macro program hlist "commas" ","
  obtain ⟨hruns, hentries, -⟩ := hprogram hclosed
  exact ⟨hlist, hclosed, rfl, hruns 6 _ _ _ 0, hentries false⟩

end Separated

end Peg
