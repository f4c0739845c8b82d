/-
Peg/Proofs/Program/Same.lean

Comparing programs.

Matchers may contain functions of the host, so equality of programs cannot be
decided.  Without such functions it can: `Program.same` compares two programs
part by part, and what it calls the same is equal.
-/
import Peg.Program.Basic

namespace Peg

/-- Whether two lists are the same, element by element. -/
def sameLists {α : Type} (same : α → α → Bool) : List α → List α → Bool
  | [], [] => true
  | left :: lefts, right :: rights => same left right && sameLists same lefts rights
  | _, _ => false

theorem eq_of_sameLists {α : Type} {same : α → α → Bool}
    (hsame : ∀ left right, same left right = true → left = right) :
    ∀ {lefts rights : List α}, sameLists same lefts rights = true → lefts = rights
  | [], [], _ => rfl
  | left :: lefts, right :: rights, h => by
    rw [sameLists, Bool.and_eq_true] at h
    rw [hsame left right h.1, eq_of_sameLists hsame h.2]

/-- An action that leaves a value has succeeded with it. -/
theorem eq_ok_of_toOption {ε α : Type} {action : Except ε α} {value : α}
    (h : action.toOption = some value) : action = .ok value := by
  cases action with
  | error => cases h
  | ok => exact congrArg _ (Option.some.inj h)

/-- A result that is the same as a value is that value. -/
theorem eq_ok_of_same {ε α : Type} {same : α → α → Bool} {result : Except ε α} {value : α}
    (hsame : ∀ {left right}, same left right = true → left = right)
    (h : result.toOption.any (same · value) = true) : result = .ok value := by
  cases result with
  | error => cases h
  | ok found => exact congrArg _ (hsame h)

/-! ### Mappers -/

mutual

/-- Whether two expressions are the same. -/
def MapperExpr.same : MapperExpr → MapperExpr → Bool
  | .capture left, .capture right => left == right
  | .startOf left, .startOf right => left == right
  | .endOf left, .endOf right => left == right
  | .text, .text => true
  | .start, .start => true
  | .stop, .stop => true
  | .str left, .str right => left == right
  | .list left, .list right => sameExprs left right
  | .node kind left, .node kind' right => kind == kind' && sameExprs left right
  | .concat left, .concat right => sameExprs left right
  | _, _ => false

/-- Whether two lists of expressions are the same. -/
def sameExprs : List MapperExpr → List MapperExpr → Bool
  | [], [] => true
  | left :: lefts, right :: rights => left.same right && sameExprs lefts rights
  | _, _ => false

end

mutual

theorem MapperExpr.eq_of_same : ∀ {left right : MapperExpr}, left.same right = true → left = right
  | .capture _, right, h | .startOf _, right, h | .endOf _, right, h | .text, right, h
  | .start, right, h | .stop, right, h | .str _, right, h => by
    cases right <;> simp_all [MapperExpr.same]
  | .list left, right, h => by
    cases right with
    | list right => exact congrArg _ (eq_of_sameExprs h)
    | _ => cases h
  | .node kind left, right, h => by
    cases right with
    | node kind' right =>
      rw [MapperExpr.same, Bool.and_eq_true, beq_iff_eq] at h
      rw [h.1, eq_of_sameExprs h.2]
    | _ => cases h
  | .concat left, right, h => by
    cases right with
    | concat right => exact congrArg _ (eq_of_sameExprs h)
    | _ => cases h

theorem eq_of_sameExprs : ∀ {lefts rights : List MapperExpr},
    sameExprs lefts rights = true → lefts = rights
  | [], [], _ => rfl
  | left :: lefts, right :: rights, h => by
    rw [sameExprs, Bool.and_eq_true] at h
    rw [MapperExpr.eq_of_same h.1, eq_of_sameExprs h.2]

end

/-- What is read as the same expression is read as that expression. -/
theorem MapperExpr.eq_ok_of_same {ε : Type} {result : Except ε MapperExpr} {expr : MapperExpr}
    (h : result.toOption.any (·.same expr) = true) : result = .ok expr :=
  Peg.eq_ok_of_same MapperExpr.eq_of_same h

/-! ### Matchers -/

mutual

/-- Whether two matchers without host functions are the same. -/
def Matcher.same : Matcher → Matcher → Bool
  | .literal left, .literal right => left == right
  | .regex left description, .regex right description' =>
    left == right && description == description'
  | .any, .any => true
  | .rule left, .rule right => left == right
  | .param, .param => true
  | .variable left, .variable right => left == right
  | .template left argument, .template right argument' => left == right && argument == argument'
  | .negative left, .negative right => left.same right
  | .look left, .look right => left.same right
  | .attempt left, .attempt right => left.same right
  | .backtrack left, .backtrack right => left.same right
  | .group left important, .group right important' =>
    sameMatchers left right && important == important'
  | .repeated left repetition, .repeated right repetition' =>
    left.same right && repetition == repetition'
  | _, _ => false

/-- Whether two lists of matchers without host functions are the same. -/
def sameMatchers : List Matcher → List Matcher → Bool
  | [], [] => true
  | left :: lefts, right :: rights => left.same right && sameMatchers lefts rights
  | _, _ => false

end

mutual

theorem Matcher.eq_of_same : ∀ {left right : Matcher}, left.same right = true → left = right
  | .literal _, right, h | .regex _ _, right, h | .any, right, h | .rule _, right, h
  | .param, right, h | .variable _, right, h | .template _ _, right, h
  | .external _ _ _, right, h => by
    cases right <;> simp_all [Matcher.same]
  | .negative left, right, h => by
    cases right with
    | negative right => exact congrArg _ (show left = right from Matcher.eq_of_same h)
    | _ => cases h
  | .look left, right, h => by
    cases right with
    | look right => exact congrArg _ (show left = right from Matcher.eq_of_same h)
    | _ => cases h
  | .attempt left, right, h => by
    cases right with
    | attempt right => exact congrArg _ (show left = right from Matcher.eq_of_same h)
    | _ => cases h
  | .backtrack left, right, h => by
    cases right with
    | backtrack right => exact congrArg _ (show left = right from Matcher.eq_of_same h)
    | _ => cases h
  | .group left important, right, h => by
    cases right with
    | group right important' =>
      rw [Matcher.same, Bool.and_eq_true, beq_iff_eq] at h
      rw [h.2, eq_of_sameMatchers h.1]
    | _ => cases h
  | .repeated left repetition, right, h => by
    cases right with
    | repeated right repetition' =>
      rw [Matcher.same, Bool.and_eq_true, beq_iff_eq] at h
      rw [h.2, Matcher.eq_of_same h.1]
    | _ => cases h

theorem eq_of_sameMatchers : ∀ {lefts rights : List Matcher},
    sameMatchers lefts rights = true → lefts = rights
  | [], [], _ => rfl
  | left :: lefts, right :: rights, h => by
    rw [sameMatchers, Bool.and_eq_true] at h
    rw [Matcher.eq_of_same h.1, eq_of_sameMatchers h.2]

end

/-! ### Programs -/

/-- Whether two alternatives without host functions are the same. -/
def CompiledAlternative.same (left right : CompiledAlternative) : Bool :=
  sameMatchers left.items right.items &&
    match left.mapper, right.mapper with
    | none, none => true
    | some left, some right => left.same right
    | _, _ => false

theorem CompiledAlternative.eq_of_same {left right : CompiledAlternative}
    (h : left.same right = true) : left = right := by
  obtain ⟨items, mapper⟩ := left
  obtain ⟨items', mapper'⟩ := right
  rw [same, Bool.and_eq_true] at h
  obtain rfl : items = items' := eq_of_sameMatchers h.1
  cases mapper with
  | none =>
    cases mapper' with
    | none => rfl
    | some => cases h.2
  | some expr =>
    cases mapper' with
    | none => cases h.2
    | some => rw [MapperExpr.eq_of_same h.2]

/-- Whether two rules without host functions are the same. -/
def CompiledRule.same (left right : CompiledRule) : Bool :=
  left.head == right.head && left.skipsBlank == right.skipsBlank && left.span == right.span &&
    sameLists CompiledAlternative.same left.alternatives right.alternatives

/-- Whether two programs without host functions are the same. -/
def Program.same (left right : Program) : Bool :=
  sameLists CompiledRule.same left.rules right.rules

theorem CompiledRule.eq_of_same {left right : CompiledRule} (h : left.same right = true) :
    left = right := by
  obtain ⟨head, skipsBlank, alternatives, span⟩ := left
  simp only [same, Bool.and_eq_true, beq_iff_eq] at h
  obtain ⟨⟨⟨rfl, rfl⟩, rfl⟩, h⟩ := h
  rw [eq_of_sameLists (fun _ _ => CompiledAlternative.eq_of_same) h]

theorem Program.eq_of_same {left right : Program} (h : left.same right = true) : left = right := by
  obtain ⟨rules⟩ := left
  obtain ⟨rules'⟩ := right
  exact congrArg _ (eq_of_sameLists (fun _ _ => CompiledRule.eq_of_same) h)

/-- What compiles to the same program compiles to that program. -/
theorem Program.eq_ok_of_same {ε : Type} {result : Except ε Program} {program : Program}
    (h : result.toOption.any (·.same program) = true) : result = .ok program :=
  Peg.eq_ok_of_same Program.eq_of_same h

end Peg
