/-
Peg/Proofs/Program/Items.lean

What the analyses look at.

The tables of nullable rules and the graph of left calls are found by looking
at the items of the alternatives, and at nothing else: not at mappers, not at
spans, not at names.  `program.itemLists` is all that there is to see, and
programs with the same item lists have the same tables and the same graph.
The rule that a run starts with is found by the heads.
-/
import Peg.Program.LeftRecursion
import Peg.Program.Run

namespace Peg

/-- The items of each alternative of a rule. -/
def CompiledRule.itemLists (rule : CompiledRule) : List (List Matcher) :=
  rule.alternatives.map (·.items)

/-- The items of each alternative of each rule. -/
def Program.itemLists (program : Program) : List (List (List Matcher)) :=
  program.rules.map CompiledRule.itemLists

/-! ### Rules -/

namespace CompiledRule

variable {rule rule' : CompiledRule}

theorem parts_eq_flatMap (rule : CompiledRule) : rule.parts = rule.itemLists.flatMap partsOfAll := by
  rw [parts, itemLists, List.flatMap_map]

theorem isNullable_of_itemLists (h : rule.itemLists = rule'.itemLists) (nullable : Nullable)
    (emptyParam : Bool) :
    rule.isNullable nullable emptyParam = rule'.isNullable nullable emptyParam := by
  have hany : ∀ rule : CompiledRule, rule.isNullable nullable emptyParam =
      rule.itemLists.any (allNullable nullable emptyParam) := by
    intro rule
    rw [isNullable, itemLists, List.any_map]
    rfl
  rw [hany, hany, h]

end CompiledRule

/-! ### Programs -/

namespace Program

variable {program program' : Program}

theorem length_of_itemLists (h : program.itemLists = program'.itemLists) :
    program.rules.length = program'.rules.length := by
  rw [← List.length_map CompiledRule.itemLists, ← List.length_map CompiledRule.itemLists]
  exact congrArg List.length h

/-- The same rule is there in both programs, or in neither. -/
theorem getElem?_of_itemLists (h : program.itemLists = program'.itemLists) (id : Nat) :
    (program.rules[id]? = none ∧ program'.rules[id]? = none) ∨
      ∃ rule rule', program.rules[id]? = some rule ∧ program'.rules[id]? = some rule' ∧
        rule.itemLists = rule'.itemLists := by
  have hplace := congrArg (·[id]?) h
  simp only [itemLists, List.getElem?_map] at hplace
  rcases hrule : program.rules[id]? with - | rule <;>
    rcases hrule' : program'.rules[id]? with - | rule'
  · exact .inl ⟨rfl, rfl⟩
  · rw [hrule, hrule'] at hplace
    cases hplace
  · rw [hrule, hrule'] at hplace
    cases hplace
  · rw [hrule, hrule'] at hplace
    exact .inr ⟨rule, rule', rfl, rfl, Option.some.inj hplace⟩

theorem flatMap_parts_of_itemLists (h : program.itemLists = program'.itemLists) :
    program.rules.flatMap CompiledRule.parts = program'.rules.flatMap CompiledRule.parts := by
  have hparts : ∀ program : Program, program.rules.flatMap CompiledRule.parts =
      program.itemLists.flatMap (·.flatMap partsOfAll) := by
    intro program
    rw [itemLists, List.flatMap_map]
    exact congrArg (List.flatMap · program.rules) (funext CompiledRule.parts_eq_flatMap)
  rw [hparts, hparts, h]

theorem size_of_itemLists (h : program.itemLists = program'.itemLists) :
    program.size = program'.size :=
  congrArg List.length (flatMap_parts_of_itemLists h)

/-- The same fuel is enough for both. -/
theorem fuel_of_itemLists (h : program.itemLists = program'.itemLists) (input : List Char) :
    program.fuel input = program'.fuel input := by
  rw [fuel, fuel, length_of_itemLists h, size_of_itemLists h]

/-- The rules to start with are found by the heads. -/
theorem startRule_of_heads
    (h : program.rules.map (·.head) = program'.rules.map (·.head)) (entry : Option String) :
    program.startRule entry = program'.startRule entry := by
  have hsearch : ∀ p : RuleHead → Bool,
      program.rules.findIdx? (fun rule => p rule.head) =
        program'.rules.findIdx? fun rule => p rule.head := by
    intro p
    have hplace := congrArg (List.findIdx? p) h
    rwa [List.findIdx?_map, List.findIdx?_map] at hplace
  cases entry with
  | none =>
    have hentry : program.entry? = program'.entry? := hsearch fun head => !head.isTemplate
    rw [startRule, startRule, hentry]
  | some name =>
    have hname : program.ruleId? name = program'.ruleId? name :=
      hsearch fun head => head.simpleName? == some name
    rw [startRule, startRule, hname]

/-! ### Analyses -/

theorem nullable_of_itemLists (h : program.itemLists = program'.itemLists) :
    program.nullable = program'.nullable := by
  -- a visit only looks at the items of one rule, so it is enough to compare visits
  have hvisit : ∀ nullable id emptyParam, Nullable.visit program nullable id emptyParam =
      Nullable.visit program' nullable id emptyParam := by
    intro nullable id emptyParam
    rw [Nullable.visit, Nullable.visit]
    rcases getElem?_of_itemLists h id with ⟨hnone, hnone'⟩ | ⟨rule, rule', hrule, hrule', hitems⟩
    · rw [hnone, hnone']
    · rw [hrule, hrule']
      dsimp only
      rw [CompiledRule.isNullable_of_itemLists hitems]
  have hpass : Nullable.pass program = Nullable.pass program' := by
    funext nullable
    rw [Nullable.pass, Nullable.pass, length_of_itemLists h]
    simp only [hvisit]
  have hsaturate : ∀ fuel nullable,
      Nullable.saturate program fuel nullable = Nullable.saturate program' fuel nullable := by
    intro fuel
    induction fuel with
    | zero => exact fun nullable => rfl
    | succ fuel ih =>
      intro nullable
      rw [Nullable.saturate, Nullable.saturate, hpass]
      simp only [ih]
  rw [nullable, nullable, hsaturate, length_of_itemLists h]

theorem hasEmptyInstance_of_itemLists (h : program.itemLists = program'.itemLists) (id : Nat) :
    program.hasEmptyInstance id = program'.hasEmptyInstance id := by
  have hany : ∀ (program : Program) (p : Matcher → Bool),
      program.rules.any (fun rule => rule.parts.any p) =
        (program.rules.flatMap CompiledRule.parts).any p := by
    intro program p
    rw [List.any_flatMap]
  rw [hasEmptyInstance, hasEmptyInstance, hany, hany, flatMap_parts_of_itemLists h]

theorem leftCallGraph_of_itemLists (h : program.itemLists = program'.itemLists)
    (nullable : Nullable) : program.leftCallGraph nullable = program'.leftCallGraph nullable := by
  have hflatMap : ∀ (rule : CompiledRule) (calls : List Matcher → List Nat),
      rule.alternatives.flatMap (fun alternative => calls alternative.items) =
        rule.itemLists.flatMap calls := by
    intro rule calls
    rw [CompiledRule.itemLists, List.flatMap_map]
  have hcalls : program.leftCallsOf nullable = program'.leftCallsOf nullable := by
    funext id
    rw [leftCallsOf, leftCallsOf]
    rcases getElem?_of_itemLists h id with ⟨hnone, hnone'⟩ | ⟨rule, rule', hrule, hrule', hitems⟩
    · rw [hnone, hnone']
    · rw [hrule, hrule']
      dsimp only
      rw [hasEmptyInstance_of_itemLists h, hflatMap, hflatMap, hitems, length_of_itemLists h]
  rw [leftCallGraph, leftCallGraph, hcalls, length_of_itemLists h]

/-- The cycles are the same, and only the names and spans shown for one may differ. -/
theorem checkLeftRecursion_of_itemLists (h : program.itemLists = program'.itemLists) :
    program.checkLeftRecursion program.nullable = .ok () ↔
      program'.checkLeftRecursion program'.nullable = .ok () := by
  rw [checkLeftRecursion, checkLeftRecursion, nullable_of_itemLists h,
    leftCallGraph_of_itemLists h]
  rcases findCycle (program'.leftCallGraph program'.nullable) with - | cycle
  · exact Iff.rfl
  · exact ⟨nofun, nofun⟩

end Program

end Peg
