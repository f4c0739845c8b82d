/-
Peg/Proofs/Program/LeftCalls.lean

The graph of left calls and its ranks.

The check for left recursion searches the graph for a cycle, so it accepts a
program exactly when no rule is among those it leads to
(`checkLeftRecursion_eq_ok_iff`).  Then every rule has a rank that drops along
its left calls, which is what termination is based on.
-/
import Peg.Proofs.Program.Cycle

namespace Peg

namespace Program

variable {program : Program} {rank : Nat → Nat}

/-! ### The graph -/

theorem mem_leftCallsOf {nullable : Nullable} {id next : Nat} {rule : CompiledRule}
    (hrule : program.rules[id]? = some rule) :
    next ∈ program.leftCallsOf nullable id ↔ next < program.rules.length ∧
      ∃ alternative ∈ rule.alternatives,
        next ∈ leftCallsOfAll nullable (program.hasEmptyInstance id) alternative.items := by
  simp [leftCallsOf, hrule]

theorem edge_leftCallGraph_iff {nullable : Nullable} {id next : Nat} :
    Edge (program.leftCallGraph nullable) id next ↔ next ∈ program.leftCallsOf nullable id := by
  unfold Edge leftCallGraph
  by_cases hid : id < program.rules.length
  · simp [List.getD_eq_getElem?_getD, hid]
  · simp [List.getD_eq_getElem?_getD, leftCallsOf, hid]

theorem closed_leftCallGraph (program : Program) (nullable : Nullable) :
    Closed (program.leftCallGraph nullable) := by
  intro id next hedge
  rw [edge_leftCallGraph_iff] at hedge
  rcases hrule : program.rules[id]? with - | rule
  · simp [leftCallsOf, hrule] at hedge
  · simpa [leftCallGraph] using ((mem_leftCallsOf hrule).1 hedge).1

/-- An instance with the empty literal is seen from every rule. -/
theorem hasEmptyInstance_of_mem {id : Nat} {rule : CompiledRule} (hrule : rule ∈ program.rules)
    (hpart : .template id "" ∈ rule.parts) : program.hasEmptyInstance id = true :=
  List.any_eq_true.2 ⟨rule, hrule, List.any_eq_true.2 ⟨_, hpart, by simp⟩⟩

/-- The check accepts a program when its left calls have no cycle. -/
theorem checkLeftRecursion_eq_ok_iff {nullable : Nullable} :
    program.checkLeftRecursion nullable = .ok () ↔
      ∀ id, ¬ Relation.TransGen (fun id next => next ∈ program.leftCallsOf nullable id) id id := by
  have hedges : Edge (program.leftCallGraph nullable) =
      fun id next => next ∈ program.leftCallsOf nullable id := by
    funext id next
    exact propext edge_leftCallGraph_iff
  rw [← hedges, ← findCycle_eq_none_iff (closed_leftCallGraph _ _), checkLeftRecursion]
  split
  · rename_i cycle hcycle
    simp [hcycle]
  · rename_i hcycle
    simp [hcycle]

/-! ### Ranks -/

/-- A number for every rule that drops along its left calls. -/
structure Ranked (program : Program) (rank : Nat → Nat) : Prop where
  lt : ∀ id < program.rules.length, rank id < program.rules.length
  drops : ∀ id next, next ∈ program.leftCallsOf program.nullable id → rank next < rank id

/-- An accepted program has such numbers. -/
theorem exists_ranked (h : program.checkLeftRecursion program.nullable = .ok ()) :
    ∃ rank, program.Ranked rank := by
  unfold checkLeftRecursion at h
  rcases hcycle : findCycle (program.leftCallGraph program.nullable) with - | cycle
  · obtain ⟨rank, hlt, hdrops⟩ := exists_rank_of_findCycle (closed_leftCallGraph _ _) hcycle
    refine ⟨rank, by simpa [leftCallGraph] using hlt, fun id next hnext => ?_⟩
    exact hdrops id next (edge_leftCallGraph_iff.2 hnext)
  · rw [hcycle] at h
    cases h

/-- The rules among the called ones have ranks below a bound. -/
def CallsBelow (program : Program) (rank : Nat → Nat) (bound : Nat) (calls : List Nat) : Prop :=
  ∀ id ∈ calls, id < program.rules.length → rank id < bound

/-- A rule calls rules of smaller rank where its alternatives start. -/
theorem Ranked.callsBelow (hranked : program.Ranked rank) {id : Nat} {rule : CompiledRule}
    (hrule : program.rules[id]? = some rule) {alternative : CompiledAlternative}
    (halternative : alternative ∈ rule.alternatives) :
    program.CallsBelow rank (rank id)
      (leftCallsOfAll program.nullable (program.hasEmptyInstance id) alternative.items) :=
  fun next hnext hlt =>
    hranked.drops id next ((mem_leftCallsOf hrule).2 ⟨hlt, alternative, halternative, hnext⟩)

/-- Without a better bound, the number of rules is one. -/
theorem Ranked.callsBelow_length (hranked : program.Ranked rank) (calls : List Nat) :
    program.CallsBelow rank program.rules.length calls :=
  fun id _ hlt => hranked.lt id hlt

end Program

end Peg
