/-
Peg/Proofs/Program/CyclePath.lean

The cycle that the check for left recursion reports.

The check goes along calls: rule `id` calls rule `next` when an item of one of
its alternatives may call `next` where it starts, and all items before it are
nullable.  `Matcher.Calls` and `Program.Calls` say this without the lists that
the check computes; `mem_leftCallsOf_iff` says that the lists hold the same.

Whether there is a cycle is settled by the ranks that the search leaves
(`checkLeftRecursion_eq_ok_iff`).  Which cycle is reported depends on the path
only: the nodes in progress are those on the path, the path is a chain of
edges, and it has no node twice because only unvisited nodes come onto it.  So
a node of the path that is met again closes a cycle, which is the part of the
path from that node on (`isCycle_of_mem_path`).  No bound on the fuel is
needed for this; a search that is cut off reports nothing.
-/
import Mathlib.Data.List.Nodup
import Peg.Proofs.Program.LeftCalls

namespace Peg

/-! ### Cycles -/

/-- A way along the edges from a node back to itself that meets no node twice. -/
structure IsCycle (edge : Nat → Nat → Prop) (cycle : List Nat) : Prop where
  returns : ∃ first between, cycle = first :: between ++ [first] ∧ (first :: between).Nodup
  chain : cycle.IsChain edge

/-- The nodes in progress are those on the path. -/
def OnPath (path : List Nat) (visits : List Visit) : Prop :=
  ∀ id : Nat, visits[id]? = some Visit.inProgress ↔ id ∈ path

variable {graph : List (List Nat)} {path : List Nat} {visits : List Visit} {id : Nat}

theorem OnPath.enter (h : OnPath path visits) (hid : id < visits.length) :
    OnPath (id :: path) (visits.set id .inProgress) := by
  intro other
  rcases eq_or_ne id other with rfl | hne
  · simp [hid]
  · rw [List.getElem?_set_ne hne, h other, List.mem_cons, or_iff_right hne.symm]

theorem OnPath.leave (h : OnPath (id :: path) visits) (hpath : id ∉ path) :
    OnPath path (visits.set id .done) := by
  intro other
  rcases eq_or_ne id other with rfl | hne
  · simp [List.getElem?_set, hpath]
  · rw [List.getElem?_set_ne hne, h other, List.mem_cons, or_iff_right hne.symm]

/-- A node of the path that is met again closes a cycle. -/
theorem isCycle_of_mem_path (hpath : path.Nodup) (hid : id ∈ path)
    (hchain : List.IsChain (fun next id => Edge graph id next) (id :: path)) :
    IsCycle (Edge graph) (path.reverse.dropWhile (· != id) ++ [id]) := by
  -- the path is written backwards, so what comes after the node in it was entered earlier
  obtain ⟨later, earlier, rfl⟩ := List.append_of_mem hid
  have hearlier : id ∉ earlier := (List.nodup_cons.1 hpath.of_append_right).1
  have hcycle : (later ++ id :: earlier).reverse.dropWhile (· != id) = id :: later.reverse := by
    rw [List.reverse_append, List.reverse_cons, List.append_assoc,
      List.dropWhile_append_of_pos]
    · simp
    · intro other hother
      simpa using fun h : other = id => hearlier (h ▸ List.mem_reverse.1 hother)
  rw [hcycle]
  constructor
  · refine ⟨id, later.reverse, rfl, ?_⟩
    rw [List.nodup_cons, List.mem_reverse, List.nodup_reverse]
    have hlater := List.nodup_append.1 hpath
    exact ⟨fun h => hlater.2.2 id h id (List.mem_cons_self ..) rfl, hlater.1⟩
  · -- backwards along the path, from the node to where it was met before
    have hback : List.IsChain (fun next id => Edge graph id next) (id :: later ++ [id]) := by
      refine hchain.prefix ⟨earlier, ?_⟩
      simp
    simpa using List.isChain_reverse.2 hback

/-- What a search may give: the path as it was before, or a cycle of the graph. -/
def Search.Closes (graph : List (List Nat)) (path : List Nat) (search : Search) : Prop :=
  match search.cycle with
  | none => OnPath path search.visits
  | some cycle => IsCycle (Edge graph) cycle

theorem searchAll_closes {search : Nat → List Visit → Search} {ids : List Nat}
    (h : ∀ id ∈ ids, ∀ visits, OnPath path visits → (search id visits).Closes graph path)
    (hvisits : OnPath path visits) : (searchAll search ids visits).Closes graph path := by
  induction ids generalizing visits with
  | nil => exact hvisits
  | cons id ids ih =>
    have hfirst := h id (List.mem_cons_self ..) visits hvisits
    rw [searchAll]
    rcases hsearch : search id visits with ⟨after, - | cycle⟩
    · rw [hsearch] at hfirst
      exact ih (fun id hid => h id (List.mem_cons_of_mem _ hid)) hfirst
    · rw [hsearch] at hfirst
      exact hfirst

theorem searchFrom_closes {fuel : Nat} (hpath : path.Nodup)
    (hchain : List.IsChain (fun next id => Edge graph id next) (id :: path))
    (hvisits : OnPath path visits) :
    (searchFrom graph fuel path id visits).Closes graph path := by
  induction fuel generalizing path id visits with
  | zero => exact hvisits
  | succ fuel ih =>
    rw [searchFrom]
    rcases hmark : visits.getD id .done with - | - | -
    · have hlt : id < visits.length := by
        by_contra hge
        simp [List.getD_eq_getElem?_getD, List.getElem?_eq_none (Nat.le_of_not_lt hge)] at hmark
      have hget : visits[id]? = some Visit.unvisited := by
        simpa [List.getD_eq_getElem?_getD, List.getElem?_eq_getElem hlt] using hmark
      -- a node on the path is in progress, so this one is new
      have hfresh : id ∉ path := by
        intro hid
        rw [(hvisits id).2 hid] at hget
        cases hget
      have hcalls : (searchAll (searchFrom graph fuel (id :: path)) (graph.getD id [])
          (visits.set id .inProgress)).Closes graph (id :: path) := by
        refine searchAll_closes (fun next hnext visits hvisits => ?_) (hvisits.enter hlt)
        exact ih (List.nodup_cons.2 ⟨hfresh, hpath⟩)
          (List.isChain_cons_cons.2 ⟨hnext, hchain⟩) hvisits
      dsimp only
      rcases hsearch : searchAll (searchFrom graph fuel (id :: path)) (graph.getD id [])
        (visits.set id .inProgress) with ⟨after, - | cycle⟩
      · rw [hsearch] at hcalls
        exact OnPath.leave hcalls hfresh
      · rw [hsearch] at hcalls
        exact hcalls
    · -- a node in progress is on the path, which leads back to it
      have hget : visits[id]? = some Visit.inProgress := by
        rcases h : visits[id]? with - | mark
        · simp [List.getD_eq_getElem?_getD, h] at hmark
        · simpa [List.getD_eq_getElem?_getD, h] using hmark
      exact isCycle_of_mem_path hpath ((hvisits id).1 hget) hchain
    · exact hvisits

/-- A cycle that is found is a cycle of the graph. -/
theorem isCycle_of_findCycle {cycle : List Nat} (h : findCycle graph = some cycle) :
    IsCycle (Edge graph) cycle := by
  have hcloses : (searchAll (searchFrom graph (graph.length + 1) []) (List.range graph.length)
      (List.replicate graph.length .unvisited)).Closes graph [] := by
    refine searchAll_closes (fun id _ visits hvisits => ?_) ?_
    · exact searchFrom_closes List.nodup_nil (List.IsChain.singleton id) hvisits
    · intro id
      simp [List.getElem?_replicate]
  unfold findCycle at h
  rwa [Search.Closes, h] at hcloses

/-! ### Calls -/

section Calls

variable {nullable : Nullable} {emptyParam : Bool} {next : Nat}

/-- A matcher may call a rule before it has read anything. -/
inductive Matcher.Calls (nullable : Nullable) (emptyParam : Bool) (next : Nat) : Matcher → Prop
  | rule : Calls nullable emptyParam next (.rule next)
  | template (argument : String) : Calls nullable emptyParam next (.template next argument)
  | negative {inner : Matcher} : Calls nullable emptyParam next inner →
      Calls nullable emptyParam next (.negative inner)
  | look {inner : Matcher} : Calls nullable emptyParam next inner →
      Calls nullable emptyParam next (.look inner)
  | attempt {inner : Matcher} : Calls nullable emptyParam next inner →
      Calls nullable emptyParam next (.attempt inner)
  | repeated {inner : Matcher} (repetition : Repetition) : Calls nullable emptyParam next inner →
      Calls nullable emptyParam next (.repeated inner repetition)
  | external {inner : Matcher} (name : String) (transformer : Option Transformer) :
      Calls nullable emptyParam next inner →
      Calls nullable emptyParam next (.external name transformer inner)
  | group {item : Matcher} (before after : List Matcher) (important : List Nat) :
      (∀ matcher ∈ before, matcher.isNullable nullable emptyParam = true) →
      Calls nullable emptyParam next item →
      Calls nullable emptyParam next (.group (before ++ item :: after) important)

/-- A sequence may call a rule before it has read anything: one of its items may, and those before
it are nullable. -/
def CallsFirst (nullable : Nullable) (emptyParam : Bool) (next : Nat) (items : List Matcher) :
    Prop :=
  ∃ before item after, items = before ++ item :: after ∧
    (∀ matcher ∈ before, matcher.isNullable nullable emptyParam = true) ∧
    item.Calls nullable emptyParam next

theorem not_callsFirst_nil : ¬ CallsFirst nullable emptyParam next [] := by
  rintro ⟨before, item, after, h, -⟩
  exact List.append_ne_nil_of_right_ne_nil _ (List.cons_ne_nil _ _) h.symm

theorem callsFirst_cons_iff {matcher : Matcher} {matchers : List Matcher} :
    CallsFirst nullable emptyParam next (matcher :: matchers) ↔
      matcher.Calls nullable emptyParam next ∨
        matcher.isNullable nullable emptyParam = true ∧
          CallsFirst nullable emptyParam next matchers := by
  constructor
  · rintro ⟨before, item, after, hitems, hbefore, hcalls⟩
    rcases before with - | ⟨first, before⟩
    · obtain ⟨rfl, rfl⟩ := List.cons.inj hitems
      exact .inl hcalls
    · obtain ⟨rfl, rfl⟩ := List.cons.inj hitems
      obtain ⟨hfirst, hbefore⟩ := List.forall_mem_cons.1 hbefore
      exact .inr ⟨hfirst, before, item, after, rfl, hbefore, hcalls⟩
  · rintro (hcalls | ⟨hfirst, before, item, after, rfl, hbefore, hcalls⟩)
    · exact ⟨[], matcher, matchers, rfl, by simp, hcalls⟩
    · exact ⟨matcher :: before, item, after, rfl, List.forall_mem_cons.2 ⟨hfirst, hbefore⟩, hcalls⟩

theorem calls_group_iff {items : List Matcher} {important : List Nat} :
    (Matcher.group items important).Calls nullable emptyParam next ↔
      CallsFirst nullable emptyParam next items := by
  constructor
  · intro h
    cases h with
    | group before after _ hbefore hcalls => exact ⟨before, _, after, rfl, hbefore, hcalls⟩
  · rintro ⟨before, item, after, rfl, hbefore, hcalls⟩
    exact .group before after important hbefore hcalls

mutual

/-- The left calls of a matcher are the rules it may call before it has read anything. -/
theorem Matcher.mem_leftCalls_iff : ∀ matcher : Matcher,
    next ∈ matcher.leftCalls nullable emptyParam ↔ matcher.Calls nullable emptyParam next
  | .rule id => by
    simp only [Matcher.leftCalls, List.mem_singleton]
    exact ⟨fun h => h ▸ .rule, fun h => by cases h; rfl⟩
  | .template id argument => by
    simp only [Matcher.leftCalls, List.mem_singleton]
    exact ⟨fun h => h ▸ .template argument, fun h => by cases h; rfl⟩
  | .negative inner => (Matcher.mem_leftCalls_iff inner).trans
      ⟨.negative, fun h => by cases h; assumption⟩
  | .look inner => (Matcher.mem_leftCalls_iff inner).trans
      ⟨.look, fun h => by cases h; assumption⟩
  | .attempt inner => (Matcher.mem_leftCalls_iff inner).trans
      ⟨.attempt, fun h => by cases h; assumption⟩
  | .repeated inner repetition => (Matcher.mem_leftCalls_iff inner).trans
      ⟨.repeated repetition, fun h => by cases h; assumption⟩
  | .external name transformer inner => (Matcher.mem_leftCalls_iff inner).trans
      ⟨.external name transformer, fun h => by cases h; assumption⟩
  | .group items _ => (mem_leftCallsOfAll_iff items).trans calls_group_iff.symm
  | .literal _ | .regex _ _ | .any | .param | .variable _ | .backtrack _ => by
    simp only [Matcher.leftCalls, List.not_mem_nil, false_iff]
    intro h
    cases h

theorem mem_leftCallsOfAll_iff : ∀ matchers : List Matcher,
    next ∈ leftCallsOfAll nullable emptyParam matchers ↔
      CallsFirst nullable emptyParam next matchers
  | [] => by simpa [leftCallsOfAll] using not_callsFirst_nil
  | matcher :: matchers => by
    rw [leftCallsOfAll, List.mem_append, Matcher.mem_leftCalls_iff matcher, callsFirst_cons_iff,
      ← mem_leftCallsOfAll_iff matchers]
    simp

end

end Calls

/-! ### Rules -/

namespace Program

variable {program : Program} {nullable : Nullable} {id next : Nat}

/-- A rule that is instantiated with the empty literal somewhere in a program. -/
def HasEmptyInstance (program : Program) (id : Nat) : Prop :=
  ∃ rule ∈ program.rules, .template id "" ∈ rule.parts

/-- A rule may call another before it has read anything.  Its parameter counts as nullable exactly
if the rule is instantiated with the empty literal. -/
def Calls (program : Program) (nullable : Nullable) (id next : Nat) : Prop :=
  next < program.rules.length ∧
    ∃ rule, program.rules[id]? = some rule ∧ ∃ alternative ∈ rule.alternatives,
      ∃ emptyParam : Bool, (emptyParam = true ↔ program.HasEmptyInstance id) ∧
        CallsFirst nullable emptyParam next alternative.items

theorem hasEmptyInstance_eq_true_iff :
    program.hasEmptyInstance id = true ↔ program.HasEmptyInstance id := by
  simp only [hasEmptyInstance, List.any_eq_true]
  refine exists_congr fun rule => and_congr_right fun _ => ⟨?_, fun h => ⟨_, h, by simp⟩⟩
  rintro ⟨part, hpart, hempty⟩
  split at hempty
  · rename_i rule argument
    rw [Bool.and_eq_true, beq_iff_eq, String.isEmpty_iff] at hempty
    obtain ⟨rfl, rfl⟩ := hempty
    exact hpart
  · cases hempty

theorem mem_leftCallsOf_iff :
    next ∈ program.leftCallsOf nullable id ↔ program.Calls nullable id next := by
  rcases hrule : program.rules[id]? with - | rule
  · simp [leftCallsOf, Calls, hrule]
  · simp only [mem_leftCallsOf hrule, Calls, hrule, Option.some.injEq, exists_eq_left']
    refine and_congr_right fun _ => exists_congr fun alternative => and_congr_right fun _ => ?_
    rw [mem_leftCallsOfAll_iff]
    constructor
    · exact fun h => ⟨_, hasEmptyInstance_eq_true_iff, h⟩
    · rintro ⟨emptyParam, hempty, h⟩
      have hparam : program.hasEmptyInstance id = emptyParam :=
        Bool.eq_iff_iff.2 (hasEmptyInstance_eq_true_iff.trans hempty.symm)
      rwa [hparam]

theorem edge_leftCallGraph :
    Edge (program.leftCallGraph nullable) = program.Calls nullable := by
  funext id next
  exact propext (edge_leftCallGraph_iff.trans mem_leftCallsOf_iff)

/-- The nodes of a cycle of calls are rules: the first one calls, and all others are called. -/
theorem exists_rules_of_isCycle {cycle : List Nat}
    (h : IsCycle (program.Calls nullable) cycle) :
    ∃ rules : List CompiledRule, cycle.map (program.rules[·]?) = rules.map some := by
  obtain ⟨first, between, rfl, -⟩ := h.returns
  have hchain := h.chain
  have hfirst : first < program.rules.length := by
    obtain ⟨second, rest, hrest⟩ := List.exists_cons_of_ne_nil
      (List.append_ne_nil_of_right_ne_nil between (List.cons_ne_nil first []))
    rw [List.cons_append, hrest] at hchain
    obtain ⟨-, rule, hrule, -⟩ := (List.isChain_cons_cons.1 hchain).1
    exact (List.getElem?_eq_some_iff.1 hrule).1
  have hothers : ∀ id ∈ between ++ [first], id < program.rules.length :=
    List.IsChain.cons_induction (· < program.rules.length) _ hchain
      (fun _ _ hcall _ => hcall.1) hfirst
  have hall : ∀ id ∈ first :: between ++ [first], id < program.rules.length :=
    List.forall_mem_cons.2 ⟨hfirst, hothers⟩
  refine ⟨(first :: between ++ [first]).pmap (fun id hid => program.rules.get ⟨id, hid⟩) hall, ?_⟩
  rw [List.map_pmap, ← List.pmap_eq_map (p := (· < program.rules.length)) (H := hall)]
  exact List.pmap_congr_left _ fun id _ hid _ => List.getElem?_eq_getElem hid

/-- The check for left recursion decides whether rules call themselves before anything is read: it
accepts a program exactly if the calls have no cycle, and what it reports is a cycle of calls, given
by the names of its rules and placed at the first of them. -/
theorem checkLeftRecursion_decides (program : Program) (nullable : Nullable) :
    (program.checkLeftRecursion nullable = .ok () ↔
      ∀ id, ¬ Relation.TransGen (program.Calls nullable) id id) ∧
    ∀ error, program.checkLeftRecursion nullable = .error error →
      ∃ (cycle : List Nat) (rules : List CompiledRule), IsCycle (program.Calls nullable) cycle ∧
        cycle.map (program.rules[·]?) = rules.map some ∧
        error.cause = .leftRecursion (rules.map (·.name)) ∧
        rules.head?.map (·.span) = some error.span := by
  constructor
  · have hcalls : (fun id next => next ∈ program.leftCallsOf nullable id) =
        program.Calls nullable := by
      funext id next
      exact propext mem_leftCallsOf_iff
    rw [checkLeftRecursion_eq_ok_iff, hcalls]
  · intro error herror
    rcases hfound : findCycle (program.leftCallGraph nullable) with - | cycle
    · rw [checkLeftRecursion, hfound] at herror
      cases herror
    · rw [checkLeftRecursion, hfound] at herror
      obtain rfl := Except.error.inj herror
      have hcycle := isCycle_of_findCycle hfound
      rw [edge_leftCallGraph] at hcycle
      obtain ⟨rules, hrules⟩ := exists_rules_of_isCycle hcycle
      -- every rule on the cycle exists, so none is left out of the report
      have hreported : cycle.filterMap (program.rules[·]?) = rules := by
        have h : cycle.filterMap (program.rules[·]?) =
            (cycle.map (program.rules[·]?)).filterMap id := by simp [List.filterMap_map]
        rw [h, hrules, List.filterMap_map]
        simp
      refine ⟨cycle, rules, hcycle, hrules, ?_, ?_⟩
      · show CompileError.Cause.leftRecursion _ = _
        rw [hreported]
      · obtain ⟨first, between, rfl, -⟩ := hcycle.returns
        rcases rules with - | ⟨rule, rules⟩
        · simp at hrules
        · simp only [leftRecursionError, hreported, List.head?_cons, Option.map_some,
            Option.getD_some]

end Program

/-! ### A cycle away from the first rule -/

namespace Circling

/-- The rule `a` leads to `b` and `c`, which call each other: `c` looks ahead for `b` after an
optional item. -/
def program : Program where
  rules :=
    [⟨.simple "a", false, [⟨[.rule 1, .rule 2], none⟩], ⟨0, 10⟩⟩,
      ⟨.simple "b", false, [⟨[.rule 2], none⟩], ⟨10, 20⟩⟩,
      ⟨.simple "c", false,
        [⟨[.group [.repeated .any .optional, .look (.rule 1)] []], none⟩], ⟨20, 30⟩⟩]

/-- The cycle is reported from `b` on, and leaves `a` out. -/
theorem checkLeftRecursion_program :
    ∃ error, program.checkLeftRecursion program.nullable = .error error ∧
      error.cause = .leftRecursion ["b", "c", "b"] ∧ error.span = ⟨10, 20⟩ ∧
      ∃ (cycle : List Nat) (rules : List CompiledRule),
        IsCycle (program.Calls program.nullable) cycle ∧
        cycle.map (program.rules[·]?) = rules.map some ∧
        error.cause = .leftRecursion (rules.map (·.name)) ∧
        rules.head?.map (·.span) = some error.span := by
  refine ⟨program.leftRecursionError [1, 2, 1], rfl, rfl, rfl, ?_⟩
  exact (Program.checkLeftRecursion_decides program program.nullable).2 _ rfl

end Circling

end Peg
