/-
Peg/Proofs/Program/Scope.lean

Programs in which everything that is referred to is there.

`Matcher.Scoped` follows the sequences around a matcher: `bound` holds,
innermost first, how many items come before it in each of them.  A variable
has to be bound by the innermost sequence and by no other.  `WellScoped` asks
for this of all alternatives of a program, and for mappers that only refer to
items of their alternative.
-/
import Mathlib.Tactic.Common
import Peg.Program.Basic

namespace Peg

/-! ### Scopes -/

mutual

/-- A matcher refers to rules of the right kind, to a parameter only inside templates, and to items
that come before it. -/
def Matcher.Scoped (heads : List RuleHead) (inTemplate : Bool) (bound : List Nat) :
    Matcher → Prop
  | .literal _ | .regex _ _ | .any => True
  | .rule id => ∃ head, heads[id]? = some head ∧ head.isTemplate = false
  | .template id _ => ∃ head, heads[id]? = some head ∧ head.isTemplate = true
  | .param => inTemplate = true
  | .variable index => index < bound.headD 0 ∧ ∀ outer ∈ bound.tail, outer ≤ index
  | .negative inner | .look inner | .attempt inner | .backtrack inner | .external _ _ inner
  | .repeated inner _ => inner.Scoped heads inTemplate bound
  | .group items important =>
    ScopedFrom heads inTemplate bound 0 items ∧ ∀ index ∈ important, index < items.length

/-- The items of a sequence that come after `index` others. -/
def ScopedFrom (heads : List RuleHead) (inTemplate : Bool) (outer : List Nat) (index : Nat) :
    List Matcher → Prop
  | [] => True
  | item :: items =>
    item.Scoped heads inTemplate (index :: outer) ∧
      ScopedFrom heads inTemplate outer (index + 1) items

end

mutual

/-- The indexes of the items that an expression refers to. -/
def MapperExpr.captures : MapperExpr → List Nat
  | .capture index | .startOf index | .endOf index => [index]
  | .text | .start | .stop | .str _ => []
  | .list items => capturesOfAll items
  | .node _ arguments => capturesOfAll arguments
  | .concat terms => capturesOfAll terms

/-- The indexes of the items that several expressions refer to. -/
def capturesOfAll : List MapperExpr → List Nat
  | [] => []
  | expr :: exprs => expr.captures ++ capturesOfAll exprs

end

/-- The items of an alternative are in scope, and so are those its mapper refers to. -/
structure CompiledAlternative.Scoped (heads : List RuleHead) (inTemplate : Bool)
    (alternative : CompiledAlternative) : Prop where
  items : ScopedFrom heads inTemplate [] 0 alternative.items
  mapper : ∀ mapper, alternative.mapper = some mapper →
    ∀ index ∈ mapper.captures, index < alternative.items.length

/-- The kinds of the rules of a program. -/
def Program.heads (program : Program) : List RuleHead :=
  program.rules.map (·.head)

/-- Everything that a program refers to is there. -/
def Program.WellScoped (program : Program) : Prop :=
  ∀ rule ∈ program.rules, ∀ alternative ∈ rule.alternatives,
    alternative.Scoped program.heads rule.head.isTemplate

variable {heads : List RuleHead} {inTemplate : Bool}

/-! ### Parts in scope -/

mutual

theorem Matcher.Scoped.part {bound : List Nat} : ∀ {matcher : Matcher},
    matcher.Scoped heads inTemplate bound → ∀ part ∈ matcher.parts,
      ∃ bound, part.Scoped heads inTemplate bound
  | .literal _, h, part, hpart | .regex _ _, h, part, hpart | .any, h, part, hpart
  | .rule _, h, part, hpart | .template _ _, h, part, hpart | .param, h, part, hpart
  | .variable _, h, part, hpart => by
    obtain rfl := List.mem_singleton.1 hpart
    exact ⟨bound, h⟩
  | .negative inner, h, part, hpart | .look inner, h, part, hpart | .attempt inner, h, part, hpart
  | .backtrack inner, h, part, hpart | .external _ _ inner, h, part, hpart
  | .repeated inner _, h, part, hpart => by
    rcases List.mem_cons.1 hpart with rfl | hpart
    · exact ⟨bound, h⟩
    · have hinner : inner.Scoped heads inTemplate bound := h
      exact hinner.part part hpart
  | .group items important, h, part, hpart => by
    rcases List.mem_cons.1 hpart with rfl | hpart
    · exact ⟨bound, h⟩
    · exact ScopedFrom.part h.1 part hpart

theorem ScopedFrom.part {outer : List Nat} : ∀ {index : Nat} {items : List Matcher},
    ScopedFrom heads inTemplate outer index items → ∀ part ∈ partsOfAll items,
      ∃ bound, part.Scoped heads inTemplate bound
  | _, [], _, part, hpart => by cases hpart
  | _, item :: items, h, part, hpart => by
    rcases List.mem_append.1 hpart with hpart | hpart
    · exact Matcher.Scoped.part h.1 part hpart
    · exact ScopedFrom.part h.2 part hpart

end

/-- Every matcher of a well-scoped program is in the scope of some sequences. -/
theorem Program.WellScoped.part {program : Program} (h : program.WellScoped) {rule : CompiledRule}
    (hrule : rule ∈ program.rules) {part : Matcher} (hpart : part ∈ rule.parts) :
    ∃ bound, part.Scoped program.heads rule.head.isTemplate bound := by
  obtain ⟨alternative, halternative, hpart⟩ := List.mem_flatMap.1 hpart
  exact (h rule hrule alternative halternative).items.part part hpart

end Peg
