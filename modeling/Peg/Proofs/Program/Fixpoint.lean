/-
Peg/Proofs/Program/Fixpoint.lean

The tables of nullable rules are the least closed ones.

`Program.nullable` starts from empty tables and only ever adds the entry of a
rule that has a nullable alternative.  So what every such addition keeps is
true of the result (`nullable_induction`), and there are two uses of that:

* every entry is justified by an alternative of its rule, which makes closed
  tables a solution of the equation `nullable_rule_eq`;
* tables that are closed have all the entries (`nullable_below`).

Both rest on monotonicity: more entries make more matchers nullable.  It is
enough to have more entries for the rules that are called.
-/
import Peg.Proofs.Program.Nullable
import Peg.Proofs.Program.Parts

namespace Peg

/-- Matchers that only call rules of some kind. -/
def Matcher.CallsOnly (p : Nat → Prop) : Matcher → Prop
  | .rule id | .template id _ => p id
  | _ => True

instance (p : Nat → Prop) [DecidablePred p] : DecidablePred (Matcher.CallsOnly p)
  | .rule id | .template id _ => inferInstanceAs (Decidable (p id))
  | .literal _ | .regex _ _ | .any | .param | .variable _ | .negative _ | .look _ | .attempt _
  | .backtrack _ | .external _ _ _ | .group _ _ | .repeated _ _ => .isTrue trivial

theorem Matcher.callsOnly_all (m : Matcher) : m.Every (CallsOnly fun _ => True) := by
  intro part _
  cases part <;> trivial

namespace Nullable

/-! ### More entries -/

/-- The entries that one pair of tables has for rules of some kind are entries of the other. -/
def Below (p : Nat → Prop) (nullable nullable' : Nullable) : Prop :=
  ∀ id, p id → ∀ emptyParam, nullable.rule id emptyParam = true →
    nullable'.rule id emptyParam = true

/-- A rule with a nullable alternative has its entry. -/
def Closed (program : Program) (nullable : Nullable) : Prop :=
  ∀ id rule emptyParam, program.rules[id]? = some rule →
    rule.isNullable nullable emptyParam = true → nullable.rule id emptyParam = true

variable {p : Nat → Prop} {nullable nullable' : Nullable}

mutual

/-- More entries make more matchers nullable. -/
theorem Below.isNullable (h : Below p nullable nullable') {emptyParam : Bool} :
    ∀ m : Matcher, m.Every (Matcher.CallsOnly p) → m.isNullable nullable emptyParam = true →
      m.isNullable nullable' emptyParam = true
  | .literal _, _, hm | .regex _ _, _, hm | .param, _, hm => hm
  | .variable _, _, _ | .look _, _, _ | .backtrack _, _, _ => rfl
  | .rule id, hcalls, hm => h id hcalls.self false hm
  | .template id argument, hcalls, hm => h id hcalls.self argument.isEmpty hm
  | .attempt inner, hcalls, hm => h.isNullable inner hcalls.attempt hm
  | .group items _, hcalls, hm => h.allNullable items hcalls.group hm
  | .repeated _ .optional, _, _ | .repeated _ .any, _, _ => by simp [Matcher.isNullable]
  | .repeated inner .oneOrMore, hcalls, hm => by
    rw [Matcher.isNullable] at hm ⊢
    exact h.isNullable inner hcalls.repeated hm

/-- The same for all items of a sequence. -/
theorem Below.allNullable (h : Below p nullable nullable') {emptyParam : Bool} :
    ∀ items : List Matcher, (∀ item ∈ items, item.Every (Matcher.CallsOnly p)) →
      allNullable nullable emptyParam items = true → allNullable nullable' emptyParam items = true
  | [], _, _ => rfl
  | item :: items, hcalls, hitems => by
    rw [Peg.allNullable, Bool.and_eq_true] at hitems ⊢
    obtain ⟨hitem, hothers⟩ := List.forall_mem_cons.1 hcalls
    exact ⟨h.isNullable item hitem hitems.1, h.allNullable items hothers hitems.2⟩

end

theorem Below.rule (h : Below p nullable nullable') {rule : CompiledRule} {emptyParam : Bool}
    (hcalls : ∀ part ∈ rule.parts, part.CallsOnly p)
    (hrule : rule.isNullable nullable emptyParam = true) :
    rule.isNullable nullable' emptyParam = true := by
  obtain ⟨alternative, halternative, hitems⟩ := List.any_eq_true.1 hrule
  refine List.any_eq_true.2 ⟨alternative, halternative, h.allNullable _ ?_ hitems⟩
  intro item hitem part hpart
  exact hcalls part (Program.mem_parts_of_item halternative hitem hpart)

theorem Below.rule_all (h : Below (fun _ => True) nullable nullable') {rule : CompiledRule}
    {emptyParam : Bool} (hrule : rule.isNullable nullable emptyParam = true) :
    rule.isNullable nullable' emptyParam = true :=
  h.rule (fun part _ => part.callsOnly_all.self) hrule

/-! ### Adding an entry -/

theorem below_mark (nullable : Nullable) (id : Nat) (emptyParam : Bool) :
    Below p nullable (nullable.mark id emptyParam) := by
  intro other _ kind hother
  cases emptyParam <;> cases kind <;>
    simp_all [Nullable.rule, mark, List.getElem?_set] <;> grind

/-- An entry that is there after one has been added was there before or is that one. -/
theorem rule_of_rule_mark {id other : Nat} {emptyParam kind : Bool}
    (h : (nullable.mark id emptyParam).rule other kind = true) :
    nullable.rule other kind = true ∨ other = id ∧ kind = emptyParam := by
  cases emptyParam <;> cases kind <;>
    simp_all [Nullable.rule, mark, List.getElem?_set] <;> grind

/-- What holds of the empty tables, and goes on to hold when a rule is looked at, holds of the
tables of a program. -/
theorem nullable_induction {program : Program} {P : Nullable → Prop}
    (hnone : P (none program.rules.length))
    (hvisit : ∀ nullable id emptyParam, P nullable → P (visit program nullable id emptyParam)) :
    P program.nullable := by
  have hpass : ∀ nullable, P nullable → P (pass program nullable) := by
    intro nullable hnullable
    unfold pass
    generalize List.range program.rules.length = ids
    induction ids generalizing nullable with
    | nil => exact hnullable
    | cons id ids ih => exact ih _ (hvisit _ id true (hvisit _ id false hnullable))
  have hsaturate : ∀ fuel nullable, P nullable → P (saturate program fuel nullable) := by
    intro fuel
    induction fuel with
    | zero => exact fun _ h => h
    | succ fuel ih =>
      intro nullable hnullable
      rw [saturate]
      split
      · exact hnullable
      · exact ih _ (hpass nullable hnullable)
  exact hsaturate _ _ hnone

theorem rule_none (count id : Nat) (emptyParam : Bool) :
    (none count).rule id emptyParam = false := by
  cases emptyParam <;> simp [Nullable.rule, none, List.getElem?_replicate] <;> split <;> rfl

end Nullable

/-! ### The tables of a program -/

namespace Program

open Nullable

/-- Every entry is justified: one of the alternatives of its rule is nullable. -/
theorem isNullable_of_nullable (program : Program) {id : Nat} {emptyParam : Bool}
    (h : program.nullable.rule id emptyParam = true) :
    ∃ rule, program.rules[id]? = some rule ∧
      rule.isNullable program.nullable emptyParam = true := by
  have hjustified : ∀ id emptyParam, program.nullable.rule id emptyParam = true →
      ∃ rule, program.rules[id]? = some rule ∧
        rule.isNullable program.nullable emptyParam = true := by
    -- justified entries are an invariant of the saturation
    refine nullable_induction (P := fun nullable => ∀ id emptyParam,
      nullable.rule id emptyParam = true → ∃ rule, program.rules[id]? = some rule ∧
        rule.isNullable nullable emptyParam = true) ?_ ?_
    · intro id emptyParam hnone
      rw [rule_none] at hnone
      cases hnone
    · intro nullable visited kind hnullable
      unfold visit
      split
      · rename_i rule hrule
        split
        · -- entries stay justified because there are only more of them
          rename_i hisNullable
          intro id emptyParam hentry
          rcases rule_of_rule_mark hentry with hentry | ⟨rfl, rfl⟩
          · obtain ⟨other, hother, hnullable⟩ := hnullable id emptyParam hentry
            exact ⟨other, hother, (below_mark nullable visited kind).rule_all hnullable⟩
          · exact ⟨rule, hrule, (below_mark nullable id emptyParam).rule_all hisNullable⟩
        · exact hnullable
      · exact hnullable
  exact hjustified id emptyParam h

theorem nullable_closed (program : Program) : Nullable.Closed program program.nullable :=
  fun _ _ _ hrule h => nullable_of_isNullable hrule h

/-- The tables solve the equation that they are computed from. -/
theorem nullable_rule_eq {program : Program} {id : Nat} {rule : CompiledRule}
    (hrule : program.rules[id]? = some rule) (emptyParam : Bool) :
    program.nullable.rule id emptyParam = rule.isNullable program.nullable emptyParam := by
  rw [Bool.eq_iff_iff]
  constructor
  · intro h
    obtain ⟨rule', hrule', hnullable⟩ := program.isNullable_of_nullable h
    rw [hrule, Option.some.injEq] at hrule'
    rw [hrule']
    exact hnullable
  · exact program.nullable_closed id rule emptyParam hrule

/-- All closed tables have the entries. -/
theorem nullable_below {program : Program} {nullable : Nullable}
    (h : Nullable.Closed program nullable) :
    Below (fun _ => True) program.nullable nullable := by
  refine nullable_induction (P := fun tables => Below (fun _ => True) tables nullable) ?_ ?_
  · intro id _ emptyParam hnone
    rw [rule_none] at hnone
    cases hnone
  · intro tables visited kind htables
    unfold visit
    split
    · rename_i rule hrule
      split
      · rename_i hisNullable
        intro id _ emptyParam hentry
        rcases rule_of_rule_mark hentry with hentry | ⟨rfl, rfl⟩
        · exact htables id trivial emptyParam hentry
        · exact h id rule emptyParam hrule (htables.rule_all hisNullable)
      · exact htables
    · exact htables

end Program

end Peg
