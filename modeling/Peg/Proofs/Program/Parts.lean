/-
Peg/Proofs/Program/Parts.lean

Properties of all the matchers of a program.

Many facts hold for programs in which certain matchers do not occur, or whose
matchers are all of some kind.  `Matcher.Every p` says that a matcher and all
those inside it have the property `p`, `Program.Every p` that all matchers of
a program have it.  Both go through `parts`, so they can be evaluated, and the
lemmas take them apart constructor by constructor.
-/
import Mathlib.Algebra.Order.BigOperators.Group.List
import Mathlib.Algebra.Order.Group.Nat
import Peg.Program.Basic

namespace Peg

variable {p q : Matcher → Prop}

/-! ### Parts -/

/-- A matcher is the first of its own parts. -/
theorem Matcher.mem_parts_self (matcher : Matcher) : matcher ∈ matcher.parts := by
  cases matcher <;> simp [parts]

/-- The parts of several matchers are those of each of them. -/
theorem mem_partsOfAll {part : Matcher} {matchers : List Matcher} :
    part ∈ partsOfAll matchers ↔ ∃ matcher ∈ matchers, part ∈ matcher.parts := by
  induction matchers with
  | nil => simp [partsOfAll]
  | cons matcher matchers ih => simp [partsOfAll, ih]

/-- The parts of one of them are in a row among the parts of all. -/
theorem parts_sublist_partsOfAll {matcher : Matcher} {matchers : List Matcher}
    (h : matcher ∈ matchers) : matcher.parts.Sublist (partsOfAll matchers) := by
  induction matchers with
  | nil => cases h
  | cons first others ih =>
    rcases List.mem_cons.1 h with rfl | h
    · exact List.sublist_append_left ..
    · exact (ih h).trans (List.sublist_append_right ..)

mutual

/-- A part of a matcher comes along with its own parts. -/
theorem Matcher.parts_sublist {part : Matcher} : ∀ m : Matcher, part ∈ m.parts →
    part.parts.Sublist m.parts
  | .literal _, h | .regex _ _, h | .any, h | .rule _, h | .param, h | .variable _, h
  | .template _ _, h => by
    obtain rfl := List.mem_singleton.1 h
    exact List.Sublist.refl _
  | .negative inner, h | .look inner, h | .attempt inner, h | .backtrack inner, h
  | .external _ _ inner, h | .repeated inner _, h => by
    rcases List.mem_cons.1 h with rfl | h
    · exact List.Sublist.refl _
    · exact (Matcher.parts_sublist inner h).cons _
  | .group items _, h => by
    rcases List.mem_cons.1 h with rfl | h
    · exact List.Sublist.refl _
    · exact (parts_sublist_all items h).cons _

/-- The parts of a part come in the same order as in the whole. -/
theorem parts_sublist_all {part : Matcher} : ∀ items : List Matcher, part ∈ partsOfAll items →
    part.parts.Sublist (partsOfAll items)
  | [], h => by cases h
  | item :: items, h => by
    rcases List.mem_append.1 h with h | h
    · exact (Matcher.parts_sublist item h).trans (List.sublist_append_left ..)
    · exact (parts_sublist_all items h).trans (List.sublist_append_right ..)

end

/-- The same for the parts of a rule. -/
theorem CompiledRule.parts_sublist (rule : CompiledRule) {part : Matcher}
    (hpart : part ∈ rule.parts) : part.parts.Sublist rule.parts := by
  obtain ⟨alternative, halternative, hitems⟩ := List.mem_flatMap.1 hpart
  refine (parts_sublist_all alternative.items hitems).trans ?_
  rw [CompiledRule.parts, List.flatMap_def]
  exact List.sublist_flatten_of_mem (List.mem_map_of_mem halternative)

/-! ### Properties of all parts -/

/-- A property of a matcher and of all those inside it. -/
def Matcher.Every (p : Matcher → Prop) (matcher : Matcher) : Prop :=
  ∀ part ∈ matcher.parts, p part

instance (p : Matcher → Prop) [DecidablePred p] : DecidablePred (Matcher.Every p) :=
  fun matcher => inferInstanceAs (Decidable (∀ part ∈ matcher.parts, p part))

namespace Matcher.Every

theorem self {matcher : Matcher} (h : matcher.Every p) : p matcher :=
  h _ matcher.mem_parts_self

/-- What implies another property does so at every part. -/
theorem mono (hpq : ∀ matcher, p matcher → q matcher) {matcher : Matcher}
    (h : matcher.Every p) : matcher.Every q :=
  fun part hpart => hpq part (h part hpart)

theorem and {matcher : Matcher} (hp : matcher.Every p) (hq : matcher.Every q) :
    matcher.Every fun part => p part ∧ q part :=
  fun part hpart => ⟨hp part hpart, hq part hpart⟩

/-- A matcher without others in it has one part. -/
theorem ofLeaf {matcher : Matcher} (hparts : matcher.parts = [matcher]) (h : p matcher) :
    matcher.Every p := by
  intro part hpart
  rw [hparts] at hpart
  rwa [List.mem_singleton.1 hpart]

/-- A matcher around another one has its parts and itself. -/
theorem ofBody {matcher inner : Matcher} (hparts : matcher.parts = matcher :: inner.parts)
    (h : p matcher) (hinner : inner.Every p) : matcher.Every p := by
  intro part hpart
  rw [hparts] at hpart
  rcases List.mem_cons.1 hpart with rfl | hpart
  · exact h
  · exact hinner part hpart

/-- A group has the parts of its items and itself. -/
theorem ofMembers {items : List Matcher} {important : List Nat} (h : p (.group items important))
    (hitems : ∀ item ∈ items, item.Every p) : (Matcher.group items important).Every p := by
  intro part hpart
  rcases List.mem_cons.1 hpart with rfl | hpart
  · exact h
  · obtain ⟨item, hitem, hpart⟩ := mem_partsOfAll.1 hpart
    exact hitems item hitem part hpart

variable {inner : Matcher}

theorem negative (h : (Matcher.negative inner).Every p) : inner.Every p :=
  fun part hpart => h part (List.mem_cons_of_mem _ hpart)

theorem look (h : (Matcher.look inner).Every p) : inner.Every p :=
  fun part hpart => h part (List.mem_cons_of_mem _ hpart)

theorem attempt (h : (Matcher.attempt inner).Every p) : inner.Every p :=
  fun part hpart => h part (List.mem_cons_of_mem _ hpart)

theorem backtrack (h : (Matcher.backtrack inner).Every p) : inner.Every p :=
  fun part hpart => h part (List.mem_cons_of_mem _ hpart)

theorem external {name : String} {transformer : Option Transformer}
    (h : (Matcher.external name transformer inner).Every p) : inner.Every p :=
  fun part hpart => h part (List.mem_cons_of_mem _ hpart)

theorem repeated {repetition : Repetition} (h : (Matcher.repeated inner repetition).Every p) :
    inner.Every p :=
  fun part hpart => h part (List.mem_cons_of_mem _ hpart)

theorem group {items : List Matcher} {important : List Nat}
    (h : (Matcher.group items important).Every p) : ∀ item ∈ items, item.Every p :=
  fun item hitem part hpart =>
    h part (List.mem_cons_of_mem _ (mem_partsOfAll.2 ⟨item, hitem, hpart⟩))

end Matcher.Every

/-! ### Properties of all matchers of a program -/

/-- A property of all matchers of a program. -/
def Program.Every (p : Matcher → Prop) (program : Program) : Prop :=
  ∀ rule ∈ program.rules, ∀ part ∈ rule.parts, p part

instance (p : Matcher → Prop) [DecidablePred p] : DecidablePred (Program.Every p) :=
  fun program => inferInstanceAs (Decidable (∀ rule ∈ program.rules, ∀ part ∈ rule.parts, p part))

namespace Program

variable {program : Program} {rule : CompiledRule} {alternative : CompiledAlternative}
variable {item : Matcher}

/-- The parts of an item are parts of the rule that it is in. -/
theorem mem_parts_of_item (halternative : alternative ∈ rule.alternatives)
    (hitem : item ∈ alternative.items) {part : Matcher} (hpart : part ∈ item.parts) :
    part ∈ rule.parts :=
  List.mem_flatMap.2 ⟨alternative, halternative, mem_partsOfAll.2 ⟨item, hitem, hpart⟩⟩

namespace Every

/-- The same for all matchers of a program. -/
theorem mono (hpq : ∀ matcher, p matcher → q matcher) (h : program.Every p) : program.Every q :=
  fun rule hrule part hpart => hpq part (h rule hrule part hpart)

theorem and (hp : program.Every p) (hq : program.Every q) :
    program.Every fun part => p part ∧ q part :=
  fun rule hrule part hpart => ⟨hp rule hrule part hpart, hq rule hrule part hpart⟩

/-- What holds everywhere in a program holds everywhere in an item of it. -/
theorem ofItem (h : program.Every p) {id : Nat} (hrule : program.rules[id]? = some rule)
    (halternative : alternative ∈ rule.alternatives) (hitem : item ∈ alternative.items) :
    item.Every p :=
  fun part hpart => h rule (List.mem_of_getElem? hrule) part
    (mem_parts_of_item halternative hitem hpart)

end Every

/-! ### Matchers of a program -/

/-- A matcher that occurs in a program, along with all those inside it. -/
def Contains (program : Program) (matcher : Matcher) : Prop :=
  ∃ rule ∈ program.rules, matcher.parts.Sublist rule.parts

namespace Contains

/-- The items of a program are in it. -/
theorem ofItem {id : Nat} (hrule : program.rules[id]? = some rule)
    (halternative : alternative ∈ rule.alternatives) (hitem : item ∈ alternative.items) :
    program.Contains item := by
  refine ⟨rule, List.mem_of_getElem? hrule, (parts_sublist_partsOfAll hitem).trans ?_⟩
  rw [CompiledRule.parts, List.flatMap_def]
  exact List.sublist_flatten_of_mem (List.mem_map_of_mem halternative)

variable {matcher inner : Matcher}

/-- A part of a rule. -/
theorem ofRule (hrule : rule ∈ program.rules) (hpart : matcher ∈ rule.parts) :
    program.Contains matcher :=
  ⟨rule, hrule, rule.parts_sublist hpart⟩

/-- What has its parts inside of a matcher of a program is in the program. -/
theorem ofPart (h : program.Contains matcher) (hparts : inner.parts.Sublist matcher.parts) :
    program.Contains inner := by
  obtain ⟨rule, hrule, hsublist⟩ := h
  exact ⟨rule, hrule, hparts.trans hsublist⟩

/-- The body of a function or a repetition. -/
theorem ofBody (h : program.Contains matcher) (hparts : matcher.parts = matcher :: inner.parts) :
    program.Contains inner := by
  refine h.ofPart ?_
  rw [hparts]
  exact List.sublist_cons_self ..

/-- The members of a group. -/
theorem ofMember {items : List Matcher} {important : List Nat}
    (h : program.Contains (.group items important)) (hitem : item ∈ items) :
    program.Contains item :=
  h.ofPart ((parts_sublist_partsOfAll hitem).trans (List.sublist_cons_self ..))

/-- A matcher that a program contains has what all of the program has. -/
theorem every (h : program.Contains matcher) (hprogram : program.Every p) : matcher.Every p := by
  obtain ⟨rule, hrule, hsublist⟩ := h
  exact fun part hpart => hprogram rule hrule part (hsublist.subset hpart)

/-- No matcher of a program has more parts than the program has matchers. -/
theorem length_le_size (h : program.Contains matcher) : matcher.parts.length ≤ program.size := by
  obtain ⟨rule, hrule, hsublist⟩ := h
  refine hsublist.length_le.trans ?_
  rw [size, List.length_flatMap]
  exact List.le_sum_of_mem (List.mem_map_of_mem hrule)

end Contains

end Program

/-! ### Kinds of matchers -/

namespace Matcher

def isBacktrack : Matcher → Bool
  | .backtrack _ => true
  | _ => false

def isExternal : Matcher → Bool
  | .external _ _ _ => true
  | _ => false

/-- Functions of the host that have been registered; the others fail. -/
def isRegistered : Matcher → Bool
  | .external _ (some _) _ => true
  | _ => false

def isParam : Matcher → Bool
  | .param => true
  | _ => false

end Matcher

end Peg
