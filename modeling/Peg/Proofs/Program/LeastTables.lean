/-
Peg/Proofs/Program/LeastTables.lean

The tables of nullable rules are the least solution of their equations.

There is one equation for each rule and each kind of parameter: the entry is
set just when some alternative of the rule has only nullable items, and
whether an item is nullable is read off the tables themselves.  The tables are
changed in place while they are read, so a pass is not one application of
these equations; what carries the proof is that looking at a rule only sets an
entry that its equation asks for.

The loop is given as a relation (`Saturates`), which has no fuel: passes up to
the first that changes nothing.  `Program.nullable_isLeast` says that the loop
ends, after no more passes than there are entries, and that it ends in the
least tables that are closed under the equations, which is also the least pair
that solves them.
-/
import Mathlib.Order.Bounds.Basic
import Peg.Proofs.Program.Fixpoint
import Peg.Proofs.Program.Instance

namespace Peg

namespace Nullable

/-! ### The order of tables -/

/-- Tables are below others that have all their entries. -/
instance : Preorder Nullable where
  le tables tables' := ∀ id emptyParam, tables.rule id emptyParam = true →
    tables'.rule id emptyParam = true
  le_refl _ _ _ h := h
  le_trans _ _ _ h h' id emptyParam hentry := h' id emptyParam (h id emptyParam hentry)

theorem Below.le {tables tables' : Nullable} (h : Below (fun _ => True) tables tables') :
    tables ≤ tables' :=
  fun id emptyParam => h id trivial emptyParam

/-! ### Equations -/

/-- Each entry says whether its rule has a nullable alternative under these very tables. -/
def Solves (program : Program) (tables : Nullable) : Prop :=
  ∀ id rule emptyParam, program.rules[id]? = some rule →
    tables.rule id emptyParam = rule.isNullable tables emptyParam

variable {program : Program} {tables : Nullable}

theorem Solves.closed (h : Solves program tables) : Closed program tables :=
  fun id rule emptyParam hrule hnullable => (h id rule emptyParam hrule).trans hnullable

/-! ### The loop -/

/-- Passes over all rules up to the first that changes nothing: so many of them turn the one pair
of tables into the other. -/
inductive Saturates (program : Program) : Nat → Nullable → Nullable → Prop where
  | stop {tables : Nullable} (h : pass program tables = tables) :
      Saturates program 0 tables tables
  | again {passes : Nat} {tables result : Nullable} (h : pass program tables ≠ tables)
      (hothers : Saturates program passes (pass program tables) result) :
      Saturates program (passes + 1) tables result

/-- Every pass but the last sets an entry, so there are no more passes than entries to set. -/
theorem saturates_saturate {fuel : Nat} (hfuel : tables.missing < fuel) :
    ∃ passes ≤ tables.missing, Saturates program passes tables (saturate program fuel tables) := by
  induction fuel generalizing tables with
  | zero => omega
  | succ fuel ih =>
    rw [saturate]
    by_cases hchanged : pass program tables = tables
    · simp only [hchanged, if_true]
      exact ⟨0, Nat.zero_le _, .stop hchanged⟩
    · simp only [hchanged, if_false]
      rcases foldl_visitBoth_eq_or_missing_lt program (List.range program.rules.length) tables with
        heq | hless
      · exact absurd heq hchanged
      · -- the pass has set an entry, so less fuel is enough for the others
        have hmissing : (pass program tables).missing < tables.missing := hless
        obtain ⟨passes, hpasses, hloop⟩ := ih (by omega : (pass program tables).missing < fuel)
        exact ⟨passes + 1, by omega, .again hchanged hloop⟩

/-! ### Rules without parameters -/

mutual

/-- Without the parameter in it, a matcher is nullable for both kinds of literals or for none. -/
theorem isNullable_eq_of_not_isParam : ∀ m : Matcher, (m.Every fun part => part.isParam = false) →
    m.isNullable tables false = m.isNullable tables true
  | .param, h => absurd h.self (by simp [Matcher.isParam])
  | .attempt inner, h => isNullable_eq_of_not_isParam inner h.attempt
  | .group items _, h => allNullable_eq_of_not_isParam items h.group
  | .repeated _ .optional, _ | .repeated _ .any, _ => by simp only [Matcher.isNullable]
  | .repeated inner .oneOrMore, h => by
    rw [Matcher.isNullable, Matcher.isNullable]
    exact isNullable_eq_of_not_isParam inner h.repeated
  | .literal _, _ | .regex _ _, _ | .any, _ | .rule _, _ | .variable _, _ | .template _ _, _
  | .negative _, _ | .look _, _ | .backtrack _, _ | .external _ _ _, _ => rfl

/-- The same for all items of a sequence. -/
theorem allNullable_eq_of_not_isParam : ∀ items : List Matcher,
    (∀ item ∈ items, item.Every fun part => part.isParam = false) →
      allNullable tables false items = allNullable tables true items
  | [], _ => rfl
  | item :: items, h => by
    obtain ⟨hitem, hitems⟩ := List.forall_mem_cons.1 h
    rw [allNullable, allNullable, isNullable_eq_of_not_isParam item hitem,
      allNullable_eq_of_not_isParam items hitems]

end

/-- The same for a rule. -/
theorem rule_isNullable_eq_of_not_isParam {rule : CompiledRule}
    (h : ∀ part ∈ rule.parts, part.isParam = false) :
    rule.isNullable tables false = rule.isNullable tables true := by
  rw [CompiledRule.isNullable, CompiledRule.isNullable, Bool.eq_iff_iff, List.any_eq_true,
    List.any_eq_true]
  refine exists_congr fun alternative => and_congr_right fun halternative => ?_
  rw [allNullable_eq_of_not_isParam]
  intro item hitem part hpart
  exact h part (Program.mem_parts_of_item halternative hitem hpart)

end Nullable

/-! ### The tables of a program -/

namespace Program

open Nullable

variable {program : Program}

theorem nullable_solves (program : Program) : Solves program program.nullable :=
  fun _ _ emptyParam hrule => nullable_rule_eq hrule emptyParam

/-- What a rule does with a literal that reads something, it does with the empty one. -/
theorem nullable_rule_true {id : Nat} (h : program.nullable.rule id false = true) :
    program.nullable.rule id true = true := by
  obtain ⟨rule, hrule, hnullable⟩ := program.isNullable_of_nullable h
  -- the same alternative, since its items are nullable for the empty literal too
  refine program.nullable_closed id rule true hrule ?_
  obtain ⟨alternative, halternative, hitems⟩ := List.any_eq_true.1 hnullable
  exact List.any_eq_true.2 ⟨alternative, halternative, allNullable_emptyParam _ hitems⟩

/-- Where only rules that exist are called, tables with an entry for each rule have one for each
call. -/
theorem IsClosed.covered {tables : Nullable} (h : program.IsClosed)
    (hcovers : tables.Covers program.rules.length) :
    program.Every (Matcher.CallsOnly fun id =>
      id < tables.rules.length ∧ id < tables.emptyParam.length) := by
  rw [hcovers.1, hcovers.2]
  refine Every.mono (fun m hm => ?_) h
  cases m with
  | rule id => exact ⟨hm, hm⟩
  | template id argument => exact ⟨hm, hm⟩
  | _ => trivial

/-- The loop ends, in the least tables that have an entry for every rule with a nullable
alternative.  They are a solution of the equations, and the least one.  An entry for a parameter
that reads something comes with the one for the empty literal, and without parameters the two are
the same.  On the way no call is looked up that the tables have no entry for. -/
theorem nullable_isLeast (hprogram : program.IsClosed) :
    (∃ passes ≤ 2 * program.rules.length,
      Saturates program passes (.none program.rules.length) program.nullable) ∧
    IsLeast {tables | tables.Covers program.rules.length ∧ Nullable.Closed program tables}
      program.nullable ∧
    IsLeast {tables | tables.Covers program.rules.length ∧ Nullable.Solves program tables}
      program.nullable ∧
    (∀ id, program.nullable.rule id false = true → program.nullable.rule id true = true) ∧
    (∀ id rule, program.rules[id]? = some rule → (∀ part ∈ rule.parts, part.isParam = false) →
      program.nullable.rule id false = program.nullable.rule id true) ∧
    ∀ tables : Nullable, tables.Covers program.rules.length →
      (program.Every (Matcher.CallsOnly fun id =>
        id < tables.rules.length ∧ id < tables.emptyParam.length)) ∧
      ∀ id emptyParam, (visit program tables id emptyParam).Covers program.rules.length := by
  refine ⟨?_, ⟨⟨program.nullable_covers, program.nullable_closed⟩, ?_⟩,
    ⟨⟨program.nullable_covers, program.nullable_solves⟩, ?_⟩, fun id => nullable_rule_true,
    fun id rule hrule hparam => ?_, fun tables hcovers => ?_⟩
  · -- each pass but the last fills an entry, and there are twice as many entries as rules
    have hmissing := missing_none program.rules.length
    have hfuel : (Nullable.none program.rules.length).missing < 2 * program.rules.length + 1 := by
      rw [hmissing]
      exact Nat.lt_succ_self _
    obtain ⟨passes, hpasses, hloop⟩ :
        ∃ passes ≤ (Nullable.none program.rules.length).missing,
          Saturates program passes (.none program.rules.length) program.nullable :=
      saturates_saturate hfuel
    exact ⟨passes, by rwa [hmissing] at hpasses, hloop⟩
  · rintro tables ⟨-, hclosed⟩
    -- only what all closed tables have is filled in
    exact (nullable_below hclosed).le
  · -- a solution is closed, so it is above the least closed tables
    rintro tables ⟨-, hsolves⟩
    exact (nullable_below hsolves.closed).le
  · rw [nullable_rule_eq hrule, nullable_rule_eq hrule]
    exact rule_isNullable_eq_of_not_isParam hparam
  · exact ⟨hprogram.covered hcovers, fun id emptyParam => hcovers.visit id emptyParam⟩

end Program

namespace Entered

/-- A rule that enters a template with the empty literal and goes on with itself, one that enters
it with a letter or reads any text, and the template, which is its parameter. -/
def program : Program where
  rules := [
    ⟨.simple "a", false, [⟨[.template 2 "", .rule 0], none⟩], {}⟩,
    ⟨.simple "b", false, [⟨[.template 2 "x", .rule 1], none⟩, ⟨[.repeated .any .any], none⟩], {}⟩,
    ⟨.template (some "k") "p", true, [⟨[.param], none⟩], {}⟩]

/-- Only the empty literal makes the template nullable, and the rule that needs itself is not in
the least tables. -/
theorem program_tables_least : program.IsClosed ∧
    IsLeast {tables | tables.Covers 3 ∧ Nullable.Solves program tables}
      ⟨[false, true, false], [false, true, true]⟩ := by
  have hclosed : program.IsClosed := by decide
  obtain ⟨-, -, hleast, -⟩ := Program.nullable_isLeast hclosed
  have htables : program.nullable = ⟨[false, true, false], [false, true, true]⟩ := by decide
  rw [htables] at hleast
  exact ⟨hclosed, hleast⟩

end Entered

end Peg
