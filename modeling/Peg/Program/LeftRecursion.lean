/-
Peg/Program/LeftRecursion.lean

Rules that may call themselves before anything is read.

The rules that a rule may call where it starts are its left calls; they make
a graph, and a rule is left-recursive when the graph has a cycle through it.
The search is depth first.  A rule is in progress while the rules it calls
are searched, and meeting a rule in progress closes a cycle; a rule that is
done leads to none.

A template that is instantiated with the empty literal anywhere is looked at
as if its parameter read nothing.
-/
import Peg.Program.Nullable
import Peg.CompileError

namespace Peg

/-! ### The graph of left calls -/

mutual

/-- The rules that a matcher may call where it starts. -/
def Matcher.leftCalls (nullable : Nullable) (emptyParam : Bool) : Matcher → List Nat
  | .rule id | .template id _ => [id]
  | .negative inner | .look inner | .attempt inner | .repeated inner _ | .external _ _ inner =>
    inner.leftCalls nullable emptyParam
  | .group items _ => leftCallsOfAll nullable emptyParam items
  | .literal _ | .regex _ _ | .any | .param | .variable _ | .backtrack _ => []

/-- The rules that a sequence may call where it starts: those of its items up to the first one
that is not nullable. -/
def leftCallsOfAll (nullable : Nullable) (emptyParam : Bool) : List Matcher → List Nat
  | [] => []
  | matcher :: matchers =>
    matcher.leftCalls nullable emptyParam ++
      if matcher.isNullable nullable emptyParam then leftCallsOfAll nullable emptyParam matchers
      else []

end

/-- Whether a rule is instantiated with the empty literal anywhere in a program. -/
def Program.hasEmptyInstance (program : Program) (id : Nat) : Bool :=
  program.rules.any fun rule => rule.parts.any fun
    | .template rule argument => rule == id && argument.isEmpty
    | _ => false

/-- The left calls of a rule, in increasing order. -/
def Program.leftCallsOf (program : Program) (nullable : Nullable) (id : Nat) : List Nat :=
  match program.rules[id]? with
  | none => []
  | some rule =>
    let calls := rule.alternatives.flatMap fun alternative =>
      leftCallsOfAll nullable (program.hasEmptyInstance id) alternative.items
    (List.range program.rules.length).filter calls.contains

/-- The left calls of every rule. -/
def Program.leftCallGraph (program : Program) (nullable : Nullable) : List (List Nat) :=
  (List.range program.rules.length).map (program.leftCallsOf nullable)

/-! ### The search for a cycle -/

/-- How far the search has come with a rule. -/
inductive Visit where
  | unvisited
  | inProgress
  | done
  deriving DecidableEq, Repr

/-- How far the search has come with every rule, and the cycle if one has been found. -/
structure Search where
  visits : List Visit
  cycle : Option (List Nat)

/-- Search from several nodes until a cycle is found. -/
def searchAll (search : Nat → List Visit → Search) : List Nat → List Visit → Search
  | [], visits => ⟨visits, none⟩
  | id :: ids, visits =>
    match search id visits with
    | ⟨visits, none⟩ => searchAll search ids visits
    | found => found

/-- Search from a node.  `path` holds the nodes that led to it, the last one first. -/
def searchFrom (graph : List (List Nat)) : (fuel : Nat) → (path : List Nat) → Nat → List Visit →
    Search
  | 0, _, _, visits => ⟨visits, none⟩
  | fuel + 1, path, id, visits =>
    match visits.getD id .done with
    | .done => ⟨visits, none⟩
    | .inProgress => ⟨visits, some ((path.reverse.dropWhile (· != id)) ++ [id])⟩
    | .unvisited =>
      match searchAll (searchFrom graph fuel (id :: path)) (graph.getD id [])
          (visits.set id .inProgress) with
      | ⟨visits, none⟩ => ⟨visits.set id .done, none⟩
      | found => found

/-- A cycle of a graph, from its first node to the same node again. -/
def findCycle (graph : List (List Nat)) : Option (List Nat) :=
  (searchAll (searchFrom graph (graph.length + 1) []) (List.range graph.length)
    (List.replicate graph.length .unvisited)).cycle

/-! ### The check -/

/-- The error for a cycle of rules. -/
def Program.leftRecursionError (program : Program) (cycle : List Nat) : CompileError :=
  let rules := cycle.filterMap fun id => program.rules[id]?
  { span := (rules.head?.map (·.span)).getD {}
    cause := .leftRecursion (rules.map (·.name))
    tip := some "consume some input before recursing, or use a repetition instead" }

/-- Refuse a program with a rule that may call itself before anything is read. -/
def Program.checkLeftRecursion (program : Program) (nullable : Nullable) :
    Except CompileError Unit :=
  match findCycle (program.leftCallGraph nullable) with
  | some cycle => .error (program.leftRecursionError cycle)
  | none => .ok ()

end Peg
