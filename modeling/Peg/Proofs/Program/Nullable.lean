/-
Peg/Proofs/Program/Nullable.lean

The tables of nullable rules are closed.

`Program.nullable` makes passes over all rules until one of them changes
nothing.  Looking at a rule either leaves the tables alone or fills an entry,
so `missing`, the number of entries that are not filled, drops with every
pass but the last, and the fuel of `saturate`, one more than the number of
entries, is enough.

At the end no rule is left out: a rule with an alternative all of whose items
are nullable has its entry (`nullable_of_isNullable`).
-/
import Mathlib.Tactic.Common
import Peg.Program.Nullable

namespace Peg

/-! ### Filling entries -/

/-- Setting an entry of a table changes nothing or leaves fewer that are not set. -/
theorem count_false_set_true (table : List Bool) (id : Nat) :
    table.set id true = table ∨ (table.set id true).count false < table.count false := by
  induction table generalizing id with
  | nil => exact .inl rfl
  | cons entry table ih =>
    cases id with
    | zero => cases entry <;> simp
    | succ id =>
      rcases ih id with h | h
      · exact .inl (by rw [List.set_cons_succ, h])
      · refine .inr ?_
        rw [List.set_cons_succ, List.count_cons, List.count_cons]
        omega

namespace Nullable

/-- The number of entries that are not filled. -/
def missing (nullable : Nullable) : Nat :=
  nullable.rules.count false + nullable.emptyParam.count false

/-- The tables have an entry for each rule. -/
def Covers (nullable : Nullable) (count : Nat) : Prop :=
  nullable.rules.length = count ∧ nullable.emptyParam.length = count

theorem missing_none (count : Nat) : (none count).missing = 2 * count := by
  simp [missing, none, Nat.two_mul]

theorem covers_none (count : Nat) : (none count).Covers count := by
  simp [Covers, none]

theorem mark_eq_or_missing_lt (nullable : Nullable) (id : Nat) (emptyParam : Bool) :
    nullable.mark id emptyParam = nullable ∨
      (nullable.mark id emptyParam).missing < nullable.missing := by
  cases emptyParam with
  | false =>
    rcases count_false_set_true nullable.rules id with h | h
    · exact .inl (by simp [mark, h])
    · exact .inr (by simp only [mark, missing, Bool.false_eq_true, if_false]; omega)
  | true =>
    rcases count_false_set_true nullable.emptyParam id with h | h
    · exact .inl (by simp [mark, h])
    · exact .inr (by simp only [mark, missing, if_true]; omega)

variable {program : Program} {nullable : Nullable}

theorem visit_eq_or_missing_lt (program : Program) (nullable : Nullable) (id : Nat)
    (emptyParam : Bool) :
    visit program nullable id emptyParam = nullable ∨
      (visit program nullable id emptyParam).missing < nullable.missing := by
  unfold visit
  split
  · split
    · exact mark_eq_or_missing_lt nullable id emptyParam
    · exact .inl rfl
  · exact .inl rfl

theorem Covers.visit {count : Nat} (h : nullable.Covers count) (id : Nat) (emptyParam : Bool) :
    (visit program nullable id emptyParam).Covers count := by
  unfold Nullable.visit
  split
  · split
    · cases emptyParam <;> simpa [Covers, mark] using h
    · exact h
  · exact h

/-! ### Passes -/

/-- What a pass does with one rule. -/
def visitBoth (program : Program) (nullable : Nullable) (id : Nat) : Nullable :=
  visit program (visit program nullable id false) id true

theorem visitBoth_eq_or_missing_lt (program : Program) (nullable : Nullable) (id : Nat) :
    visitBoth program nullable id = nullable ∨
      (visitBoth program nullable id).missing < nullable.missing := by
  rcases visit_eq_or_missing_lt program nullable id false with h | h
  · rw [visitBoth, h]
    exact visit_eq_or_missing_lt program nullable id true
  · rcases visit_eq_or_missing_lt program (visit program nullable id false) id true with h' | h'
    · rw [visitBoth, h']
      exact .inr h
    · exact .inr (Nat.lt_trans h' h)

/-- A rule whose visit changes nothing is changed by neither half of it. -/
theorem visit_eq_of_visitBoth_eq {id : Nat} (h : visitBoth program nullable id = nullable)
    (emptyParam : Bool) : visit program nullable id emptyParam = nullable := by
  have hfirst : visit program nullable id false = nullable := by
    rcases visit_eq_or_missing_lt program nullable id false with h' | h'
    · exact h'
    · rcases visit_eq_or_missing_lt program (visit program nullable id false) id true with h'' | h''
      · rw [visitBoth, h''] at h
        exact h
      · rw [← visitBoth, h] at h''
        exact absurd (Nat.lt_trans h'' h') (Nat.lt_irrefl _)
  cases emptyParam with
  | false => exact hfirst
  | true => rwa [visitBoth, hfirst] at h

theorem foldl_visitBoth_eq_or_missing_lt (program : Program) (ids : List Nat)
    (nullable : Nullable) :
    ids.foldl (visitBoth program) nullable = nullable ∨
      (ids.foldl (visitBoth program) nullable).missing < nullable.missing := by
  induction ids generalizing nullable with
  | nil => exact .inl rfl
  | cons id ids ih =>
    rcases visitBoth_eq_or_missing_lt program nullable id with h | h
    · rw [List.foldl_cons, h]
      exact ih nullable
    · rcases ih (visitBoth program nullable id) with h' | h'
      · rw [List.foldl_cons, h']
        exact .inr h
      · exact .inr (Nat.lt_trans h' h)

/-- A round that changes nothing changed nothing at any of its rules. -/
theorem visitBoth_eq_of_foldl_eq {ids : List Nat}
    (h : ids.foldl (visitBoth program) nullable = nullable) :
    ∀ id ∈ ids, visitBoth program nullable id = nullable := by
  induction ids with
  | nil => simp
  | cons id ids ih =>
    have hid : visitBoth program nullable id = nullable := by
      rcases visitBoth_eq_or_missing_lt program nullable id with h' | h'
      · exact h'
      · rcases foldl_visitBoth_eq_or_missing_lt program ids
          (visitBoth program nullable id) with h'' | h''
        · rw [List.foldl_cons, h''] at h
          exact h
        · rw [← List.foldl_cons, h] at h''
          exact absurd (Nat.lt_trans h'' h') (Nat.lt_irrefl _)
    rw [List.foldl_cons, hid] at h
    exact List.forall_mem_cons.2 ⟨hid, ih h⟩

theorem Covers.pass {count : Nat} (h : nullable.Covers count) :
    (pass program nullable).Covers count := by
  unfold Nullable.pass
  generalize List.range program.rules.length = ids
  induction ids generalizing nullable with
  | nil => exact h
  | cons id ids ih => exact ih ((h.visit id false).visit id true)

/-! ### Saturation -/

theorem pass_saturate {fuel : Nat} (h : nullable.missing < fuel) :
    pass program (saturate program fuel nullable) = saturate program fuel nullable := by
  induction fuel generalizing nullable with
  | zero => omega
  | succ fuel ih =>
    rw [saturate]
    split
    · assumption
    · rename_i hchanged
      refine ih ?_
      rcases foldl_visitBoth_eq_or_missing_lt program
        (List.range program.rules.length) nullable with h' | h'
      · exact absurd h' hchanged
      · have : (pass program nullable).missing < nullable.missing := h'
        omega

theorem Covers.saturate {count : Nat} (h : nullable.Covers count) (fuel : Nat) :
    (saturate program fuel nullable).Covers count := by
  induction fuel generalizing nullable with
  | zero => exact h
  | succ fuel ih =>
    rw [Nullable.saturate]
    split
    · exact h
    · exact ih h.pass

end Nullable

namespace Program

theorem nullable_covers (program : Program) : program.nullable.Covers program.rules.length :=
  (Nullable.covers_none _).saturate _

/-- Looking at a rule once more changes nothing. -/
theorem visit_nullable (program : Program) {id : Nat} (hid : id < program.rules.length)
    (emptyParam : Bool) :
    Nullable.visit program program.nullable id emptyParam = program.nullable := by
  have hpass : Nullable.pass program program.nullable = program.nullable :=
    Nullable.pass_saturate (by rw [Nullable.missing_none]; exact Nat.lt_succ_self _)
  exact Nullable.visit_eq_of_visitBoth_eq
    (Nullable.visitBoth_eq_of_foldl_eq hpass id (List.mem_range.2 hid)) emptyParam

/-- The tables are closed: a rule with a nullable alternative has its entry. -/
theorem nullable_of_isNullable {program : Program} {id : Nat} {rule : CompiledRule}
    {emptyParam : Bool} (hrule : program.rules[id]? = some rule)
    (h : rule.isNullable program.nullable emptyParam = true) :
    program.nullable.rule id emptyParam = true := by
  have hid : id < program.rules.length := (List.getElem?_eq_some_iff.1 hrule).1
  have hvisit := program.visit_nullable hid emptyParam
  obtain ⟨hrules, hempty⟩ := program.nullable_covers
  rw [Nullable.visit, hrule] at hvisit
  simp only [h, if_true] at hvisit
  rw [← hvisit]
  cases emptyParam with
  | false => simp [Nullable.rule, Nullable.mark, hrules, hid]
  | true => simp [Nullable.rule, Nullable.mark, hempty, hid]

end Program

/-! ### The parameter -/

mutual

/-- What is nullable for a parameter that reads something is nullable for one that does not. -/
theorem Matcher.isNullable_emptyParam {nullable : Nullable} {emptyParam : Bool} :
    ∀ matcher : Matcher, matcher.isNullable nullable emptyParam = true →
      matcher.isNullable nullable true = true
  | .param, _ => rfl
  | .attempt inner, h => inner.isNullable_emptyParam h
  | .group items _, h => allNullable_emptyParam items h
  | .repeated _ .optional, _ | .repeated _ .any, _ => by simp [Matcher.isNullable]
  | .repeated inner .oneOrMore, h => by
    rw [Matcher.isNullable] at h ⊢
    exact inner.isNullable_emptyParam h
  | .literal _, h | .regex _ _, h | .rule _, h | .template _ _, h => h
  | .variable _, _ | .look _, _ | .backtrack _, _ => rfl

/-- The same for all items of a sequence. -/
theorem allNullable_emptyParam {nullable : Nullable} {emptyParam : Bool} :
    ∀ matchers : List Matcher, allNullable nullable emptyParam matchers = true →
      allNullable nullable true matchers = true
  | [], _ => rfl
  | matcher :: matchers, h => by
    rw [allNullable, Bool.and_eq_true] at h ⊢
    exact ⟨matcher.isNullable_emptyParam h.1, allNullable_emptyParam matchers h.2⟩

end

end Peg
