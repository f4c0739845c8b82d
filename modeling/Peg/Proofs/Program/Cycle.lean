/-
Peg/Proofs/Program/Cycle.lean

The search for cycles finds one whenever there is one.

`findCycle` goes through a graph depth first.  `Searched` is what its marks
mean at any moment: the nodes in progress are those on the path, and the nodes
that are done lead only to nodes that are done.  The latter carry a rank that
drops along every edge; a node gets, when it is finished, the number of nodes
finished before it.

So a search that ends without a cycle leaves a rank for the whole graph
(`exists_rank_of_findCycle`), while a cycle that is reported closes the path
(`transGen_of_findCycle`).  Together: `findCycle_eq_none_iff`.

The fuel of the search counts down along the path.  Every step onto the path
takes a node away from those not visited yet, so there is always enough.
-/
import Mathlib.Data.List.Chain
import Mathlib.Logic.Function.Basic
import Mathlib.Logic.Relation
import Mathlib.Order.Nat
import Peg.Program.LeftRecursion

namespace Peg

/-- An edge of a graph given by the successors of every node. -/
def Edge (graph : List (List Nat)) (id next : Nat) : Prop :=
  next ∈ graph.getD id []

/-- Edges lead to nodes of the graph. -/
def Closed (graph : List (List Nat)) : Prop :=
  ∀ id next, Edge graph id next → next < graph.length

/-- The meaning of the marks of a search. -/
structure Searched (graph : List (List Nat)) (path : List Nat) (visits : List Visit)
    (rank : Nat → Nat) : Prop where
  length : visits.length = graph.length
  onPath : ∀ id : Nat, visits[id]? = some Visit.inProgress ↔ id ∈ path
  rank_lt : ∀ id : Nat, visits[id]? = some Visit.done → rank id < visits.count Visit.done
  done : ∀ id : Nat, visits[id]? = some Visit.done → ∀ next, Edge graph id next →
    visits[next]? = some Visit.done ∧ rank next < rank id

/-- A search that has found no cycle: the path is the same as before, what was done still is, and
no node has become unvisited. -/
def Continues (graph : List (List Nat)) (path : List Nat) (before after : List Visit) : Prop :=
  (∃ rank, Searched graph path after rank) ∧
    (∀ id : Nat, before[id]? = some Visit.done → after[id]? = some Visit.done) ∧
    after.count Visit.unvisited ≤ before.count Visit.unvisited

variable {graph : List (List Nat)} {path : List Nat} {visits : List Visit} {rank : Nat → Nat}

/-! ### Marks -/

/-- A node that comes onto the path is no longer unvisited. -/
theorem Searched.enter {id : Nat} (h : Searched graph path visits rank)
    (hid : visits[id]? = some Visit.unvisited) :
    Searched graph (id :: path) (visits.set id Visit.inProgress) rank := by
  obtain ⟨hlt, hget⟩ := List.getElem?_eq_some_iff.1 hid
  have hdone : ∀ other : Nat, (visits.set id Visit.inProgress)[other]? = some Visit.done ↔
      visits[other]? = some Visit.done := by
    intro other
    rcases eq_or_ne id other with rfl | hne
    · simp [hlt, hget]
    · rw [List.getElem?_set_ne hne]
  refine ⟨by simpa using h.length, ?_, ?_, ?_⟩
  · intro other
    rcases eq_or_ne id other with rfl | hne
    · simp [hlt]
    · rw [List.getElem?_set_ne hne, h.onPath, List.mem_cons, or_iff_right hne.symm]
  · intro other hother
    have hcount : (visits.set id Visit.inProgress).count Visit.done = visits.count Visit.done := by
      rw [List.count_set hlt, hget]
      simp
    rw [hcount]
    exact h.rank_lt other ((hdone other).1 hother)
  · intro other hother next hnext
    obtain ⟨hnextDone, hrank⟩ := h.done other ((hdone other).1 hother) next hnext
    exact ⟨(hdone next).2 hnextDone, hrank⟩

/-- A node whose successors are done is finished; its rank is the number of nodes done before. -/
theorem Searched.finish {id : Nat} (h : Searched graph (id :: path) visits rank)
    (hpath : id ∉ path) (hcalls : ∀ next, Edge graph id next → visits[next]? = some Visit.done) :
    Searched graph path (visits.set id Visit.done)
      (Function.update rank id (visits.count Visit.done)) := by
  have hid : visits[id]? = some Visit.inProgress := (h.onPath id).2 (List.mem_cons_self ..)
  obtain ⟨hlt, hget⟩ := List.getElem?_eq_some_iff.1 hid
  -- the node itself was not done before
  have hne : ∀ other : Nat, visits[other]? = some Visit.done → other ≠ id := by
    rintro other hother rfl
    rw [hid] at hother
    cases hother
  have hdone : ∀ other : Nat, (visits.set id Visit.done)[other]? = some Visit.done ↔
      other = id ∨ visits[other]? = some Visit.done := by
    intro other
    rcases eq_or_ne id other with rfl | hne
    · simp [hlt]
    · rw [List.getElem?_set_ne hne, or_iff_right hne.symm]
  -- so it gets the next rank, above those of its successors
  have hcount : (visits.set id Visit.done).count Visit.done = visits.count Visit.done + 1 := by
    rw [List.count_set hlt, hget]
    simp
  refine ⟨by simpa using h.length, ?_, ?_, ?_⟩
  · intro other
    rcases eq_or_ne id other with rfl | hne
    · simp [hlt, hpath]
    · rw [List.getElem?_set_ne hne, h.onPath, List.mem_cons, or_iff_right hne.symm]
  · intro other hother
    rw [hcount]
    rcases (hdone other).1 hother with rfl | hother
    · rw [Function.update_self]
      exact Nat.lt_succ_self _
    · rw [Function.update_of_ne (hne other hother)]
      exact Nat.lt_succ_of_lt (h.rank_lt other hother)
  · -- ranks of nodes that were done before are not touched
    intro other hother next hnext
    rcases (hdone other).1 hother with rfl | hother
    · have hnextDone := hcalls next hnext
      rw [Function.update_self, Function.update_of_ne (hne next hnextDone)]
      exact ⟨(hdone next).2 (.inr hnextDone), h.rank_lt next hnextDone⟩
    · obtain ⟨hnextDone, hrank⟩ := h.done other hother next hnext
      rw [Function.update_of_ne (hne other hother), Function.update_of_ne (hne next hnextDone)]
      exact ⟨(hdone next).2 (.inr hnextDone), hrank⟩

/-! ### Searches -/

/-- What a search may give: marks that go on from those before, with the nodes it started from
done, or a cycle of the graph. -/
def Search.Sound (graph : List (List Nat)) (path ids : List Nat) (before : List Visit)
    (search : Search) : Prop :=
  match search.cycle with
  | none => Continues graph path before search.visits ∧
      ∀ id ∈ ids, search.visits[id]? = some Visit.done
  | some _ => ∃ id, Relation.TransGen (Edge graph) id id

theorem Continues.refl (h : Searched graph path visits rank) :
    Continues graph path visits visits :=
  ⟨⟨rank, h⟩, fun _ hid => hid, Nat.le_refl _⟩

theorem Continues.trans {before middle after : List Visit}
    (h : Continues graph path before middle) (h' : Continues graph path middle after) :
    Continues graph path before after :=
  ⟨h'.1, fun id hid => h'.2.1 id (h.2.1 id hid), h'.2.2.trans h.2.2⟩

/-- Searching from several nodes is sound if searching from each of them is. -/
theorem searchAll_sound (limit : Nat) {search : Nat → List Visit → Search} {ids : List Nat}
    (h : ∀ id ∈ ids, ∀ visits rank, Searched graph path visits rank →
      visits.count Visit.unvisited < limit → (search id visits).Sound graph path [id] visits)
    (hvisits : Searched graph path visits rank) (hlimit : visits.count Visit.unvisited < limit) :
    (searchAll search ids visits).Sound graph path ids visits := by
  induction ids generalizing visits rank with
  | nil => exact ⟨.refl hvisits, by simp⟩
  | cons id ids ih =>
    have hfirst := h id (List.mem_cons_self ..) visits rank hvisits hlimit
    rw [searchAll]
    rcases hsearch : search id visits with ⟨after, - | cycle⟩
    · rw [hsearch] at hfirst
      obtain ⟨hcontinues, hid⟩ := hfirst
      obtain ⟨rank', hafter⟩ := hcontinues.1
      -- the searches after the first begin with what it has visited
      have hrest := ih (fun id hid => h id (List.mem_cons_of_mem _ hid)) hafter
        (hcontinues.2.2.trans_lt hlimit)
      dsimp only
      rcases hothers : searchAll search ids after with ⟨last, - | cycle⟩
      · rw [hothers] at hrest
        refine ⟨hcontinues.trans hrest.1, List.forall_mem_cons.2 ⟨?_, hrest.2⟩⟩
        exact hrest.1.2.1 id (hid id (List.mem_singleton_self id))
      · rw [hothers] at hrest
        exact hrest
    · rw [hsearch] at hfirst
      exact hfirst

/-- Meeting a node of the path closes a cycle. -/
theorem transGen_of_mem_path {id : Nat}
    (h : List.IsChain (fun next id => Edge graph id next) (id :: path)) (hid : id ∈ path) :
    Relation.TransGen (Edge graph) id id := by
  have hchain : List.IsChain (fun next id => Relation.TransGen (Edge graph) id next)
      (id :: path) :=
    h.imp fun _ _ hedge => .single hedge
  have : Trans (fun next id => Relation.TransGen (Edge graph) id next)
      (fun next id => Relation.TransGen (Edge graph) id next)
      (fun next id => Relation.TransGen (Edge graph) id next) :=
    ⟨fun h h' => h'.trans h⟩
  exact List.rel_of_pairwise_cons hchain.pairwise hid

theorem searchFrom_sound (hclosed : Closed graph) {fuel : Nat} {id : Nat}
    (hid : id < graph.length)
    (hchain : List.IsChain (fun next id => Edge graph id next) (id :: path))
    (hvisits : Searched graph path visits rank) (hfuel : visits.count Visit.unvisited < fuel) :
    (searchFrom graph fuel path id visits).Sound graph path [id] visits := by
  induction fuel generalizing path id visits rank with
  | zero => omega
  | succ fuel ih =>
    have hlt : id < visits.length := hvisits.length ▸ hid
    have hget : visits[id]? = some (visits.getD id .done) := by
      rw [List.getD_eq_getElem?_getD, List.getElem?_eq_getElem hlt, Option.getD_some]
    rw [searchFrom]
    rcases hmark : visits.getD id .done with - | - | -
    · -- the node is searched, and becomes done after its successors
      rw [hmark] at hget
      -- marking the node takes one away from the nodes that are left, so the fuel lasts
      have hcount : (visits.set id Visit.inProgress).count Visit.unvisited < fuel := by
        have hpos : 0 < visits.count Visit.unvisited :=
          List.count_pos_iff.2 (List.mem_of_getElem? hget)
        rw [List.count_set hlt, (List.getElem?_eq_some_iff.1 hget).2]
        simp only [beq_self_eq_true, if_true, reduceCtorEq, beq_iff_eq, if_false]
        omega
      -- a node on the path is marked as such, and this one is not
      have hpath : id ∉ path := fun hmem => by
        have := (hvisits.onPath id).2 hmem
        rw [hget] at this
        cases this
      have hcalls : (searchAll (searchFrom graph fuel (id :: path)) (graph.getD id [])
          (visits.set id Visit.inProgress)).Sound graph (id :: path) (graph.getD id [])
            (visits.set id Visit.inProgress) := by
        refine searchAll_sound _ (fun next hnext visits rank hvisits hlimit => ?_)
          (hvisits.enter hget) hcount
        exact ih (hclosed id next hnext) (List.isChain_cons_cons.2 ⟨hnext, hchain⟩) hvisits hlimit
      dsimp only
      rcases hsearch : searchAll (searchFrom graph fuel (id :: path)) (graph.getD id [])
        (visits.set id Visit.inProgress) with ⟨after, - | cycle⟩
      · rw [hsearch] at hcalls
        obtain ⟨⟨⟨rank', hafter⟩, hdone, hle⟩, hnext⟩ := hcalls
        have hltAfter : id < after.length := hafter.length ▸ hid
        have hgetAfter := (List.getElem?_eq_some_iff.1
          ((hafter.onPath id).2 (List.mem_cons_self ..))).2
        refine ⟨⟨⟨_, hafter.finish hpath hnext⟩, ?_, ?_⟩, ?_⟩
        · -- a node that was done before stays done
          intro other hother
          rcases eq_or_ne id other with rfl | hne
          · simp [hltAfter]
          · rw [List.getElem?_set_ne hne]
            exact hdone other (by rwa [List.getElem?_set_ne hne])
        · rw [List.count_set hltAfter, hgetAfter]
          simp only [reduceCtorEq, beq_iff_eq, if_false]
          rw [List.count_set hlt] at hle
          simp only [reduceCtorEq, beq_iff_eq, if_false] at hle
          omega
        · simp [hltAfter]
      · rw [hsearch] at hcalls
        exact hcalls
    · rw [hmark] at hget
      -- a node on the path closes a cycle
      exact ⟨id, transGen_of_mem_path hchain ((hvisits.onPath id).1 hget)⟩
    · rw [hmark] at hget
      exact ⟨.refl hvisits, by simpa using hget⟩

/-! ### The whole graph -/

theorem findCycle_sound (hclosed : Closed graph) :
    (searchAll (searchFrom graph (graph.length + 1) []) (List.range graph.length)
      (List.replicate graph.length .unvisited)).Sound graph [] (List.range graph.length)
        (List.replicate graph.length .unvisited) := by
  have hstart : Searched graph [] (List.replicate graph.length .unvisited) fun _ => 0 := by
    constructor <;> simp [List.getElem?_replicate]
  refine searchAll_sound (graph.length + 1) (fun id hid visits rank hvisits hlimit => ?_)
    hstart (by simp)
  exact searchFrom_sound hclosed (List.mem_range.1 hid) (List.IsChain.singleton id) hvisits hlimit

/-- A graph without a cycle has a rank that drops along every edge and is below the number of
nodes. -/
theorem exists_rank_of_findCycle (hclosed : Closed graph) (h : findCycle graph = none) :
    ∃ rank : Nat → Nat, (∀ id < graph.length, rank id < graph.length) ∧
      ∀ id next, Edge graph id next → rank next < rank id := by
  have hsound := findCycle_sound hclosed
  unfold findCycle at h
  rw [Search.Sound, h] at hsound
  obtain ⟨⟨⟨rank, hsearched⟩, -, -⟩, hdone⟩ := hsound
  refine ⟨rank, fun id hid => ?_, fun id next hnext => ?_⟩
  · refine (hsearched.rank_lt id (hdone id (List.mem_range.2 hid))).trans_le ?_
    exact List.count_le_length.trans_eq hsearched.length
  · have hid : id < graph.length := by
      by_contra hge
      simp [Edge, List.getElem?_eq_none (Nat.le_of_not_lt hge)] at hnext
    exact (hsearched.done id (hdone id (List.mem_range.2 hid)) next hnext).2

/-- A cycle that is reported is one. -/
theorem transGen_of_findCycle (hclosed : Closed graph) {cycle : List Nat}
    (h : findCycle graph = some cycle) : ∃ id, Relation.TransGen (Edge graph) id id := by
  have hsound := findCycle_sound hclosed
  unfold findCycle at h
  rwa [Search.Sound, h] at hsound

/-- The search finds a cycle exactly when there is one. -/
theorem findCycle_eq_none_iff (hclosed : Closed graph) :
    findCycle graph = none ↔ ∀ id, ¬ Relation.TransGen (Edge graph) id id := by
  constructor
  · intro h id hcycle
    obtain ⟨rank, -, hrank⟩ := exists_rank_of_findCycle hclosed h
    have hdrop : ∀ next, Relation.TransGen (Edge graph) id next → rank next < rank id := by
      intro next hnext
      induction hnext with
      | single hedge => exact hrank _ _ hedge
      | tail _ hedge ih => exact (hrank _ _ hedge).trans ih
    exact (hdrop id hcycle).false
  · intro h
    rcases hfound : findCycle graph with - | cycle
    · rfl
    · obtain ⟨id, hid⟩ := transGen_of_findCycle hclosed hfound
      exact absurd hid (h id)

end Peg
