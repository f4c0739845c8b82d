/-
Peg/Proofs/Program/Stratified.lean

Backward matching that stays out of the way.

The check for left recursion follows the rules that are called where a rule
starts.  It does not follow a backward matcher, whose body runs on another
text, and it takes every item of a sequence to go forward.  After a backward
matcher the items of a sequence may come to any offset again.

So the calls of a matcher are told apart by where they can happen:

    ahead     on the same text, no further back than the matcher starts
    behind    on a text that has been turned around, or after going back

A program is stratified when its rules can be given levels such that a call
ahead does not go up, and a call behind goes down.  Which rules never stop
before they start is part of the choice, since what follows their calls in a
sequence is still ahead.

Programs without backward matchers are stratified: there is nothing behind.
-/
import Peg.Proofs.Program.Progress

namespace Peg

/-! ### Calls -/

/-- The rule that a matcher itself calls. -/
def Matcher.called : Matcher → List Nat
  | .rule id | .template id _ => [id]
  | _ => []

/-- The rules that a matcher calls anywhere. -/
def Matcher.calls (m : Matcher) : List Nat :=
  m.parts.flatMap Matcher.called

/-- The rules that several matchers call. -/
def callsOfAll (items : List Matcher) : List Nat :=
  (partsOfAll items).flatMap Matcher.called

theorem callsOfAll_cons (item : Matcher) (items : List Matcher) :
    callsOfAll (item :: items) = item.calls ++ callsOfAll items :=
  List.flatMap_append

mutual

/-- The rules that a matcher may call on another text, or after it has gone back. -/
def Matcher.callsBehind (forward : Nat → Bool) : Matcher → List Nat
  | .backtrack inner | .external _ _ inner => inner.calls
  | .negative inner | .look inner | .attempt inner | .repeated inner .optional =>
    inner.callsBehind forward
  | .repeated inner .any | .repeated inner .oneOrMore =>
    -- the next attempt starts where the one before has stopped
    if inner.advances forward then inner.callsBehind forward else inner.calls
  | .group items _ => callsBehindAll forward items
  | .literal _ | .regex _ _ | .any | .rule _ | .param | .variable _ | .template _ _ => []

/-- The same for a sequence: behind an item that may stop before it starts, all calls count. -/
def callsBehindAll (forward : Nat → Bool) : List Matcher → List Nat
  | [] => []
  | item :: items =>
    item.callsBehind forward ++
      if item.advances forward then callsBehindAll forward items else callsOfAll items

end

/-! ### Levels -/

/-- Levels for the rules of a program, and rules that never stop before they start.  Calls do not go
up, and calls behind go down. -/
structure Program.Stratified (program : Program) (forward : Nat → Bool) (level : Nat → Nat) :
    Prop where
  advances : ∀ id rule, program.rules[id]? = some rule → forward id = true →
    ∀ alternative ∈ rule.alternatives, allAdvance forward alternative.items = true
  ahead : ∀ id rule, program.rules[id]? = some rule → ∀ alternative ∈ rule.alternatives,
    ∀ next ∈ callsOfAll alternative.items, level next ≤ level id
  behind : ∀ id rule, program.rules[id]? = some rule → ∀ alternative ∈ rule.alternatives,
    ∀ next ∈ callsBehindAll forward alternative.items, level next < level id

/-- Programs whose rules have such levels. -/
def Program.IsStratified (program : Program) : Prop :=
  ∃ forward level, program.Stratified forward level

/-! ### Nothing behind -/

mutual

/-- Without backward matchers and functions of the host nothing is called behind. -/
theorem Matcher.callsBehind_of_every : ∀ m : Matcher,
    (m.Every fun part => part.isBacktrack = false) →
    (m.Every fun part => part.isExternal = false) → m.callsBehind (fun _ => true) = []
  | .literal _, _, _ | .regex _ _, _, _ | .any, _, _ | .rule _, _, _ | .param, _, _
  | .variable _, _, _ | .template _ _, _, _ => rfl
  | .negative inner, h, h' => inner.callsBehind_of_every h.negative h'.negative
  | .look inner, h, h' => inner.callsBehind_of_every h.look h'.look
  | .attempt inner, h, h' => inner.callsBehind_of_every h.attempt h'.attempt
  | .repeated inner .optional, h, h' => inner.callsBehind_of_every h.repeated h'.repeated
  | .repeated inner .any, h, h' | .repeated inner .oneOrMore, h, h' => by
    rw [Matcher.callsBehind, if_pos (inner.advances_of_every h.repeated h'.repeated)]
    exact inner.callsBehind_of_every h.repeated h'.repeated
  | .backtrack _, h, _ => nomatch h.self
  | .external _ _ _, _, h' => nomatch h'.self
  | .group items _, h, h' => callsBehindAll_of_every items h.group h'.group

theorem callsBehindAll_of_every : ∀ items : List Matcher,
    (∀ item ∈ items, item.Every fun part => part.isBacktrack = false) →
    (∀ item ∈ items, item.Every fun part => part.isExternal = false) →
    callsBehindAll (fun _ => true) items = []
  | [], _, _ => rfl
  | item :: items, h, h' => by
    obtain ⟨hitem, hitems⟩ := List.forall_mem_cons.1 h
    obtain ⟨hitem', hitems'⟩ := List.forall_mem_cons.1 h'
    rw [callsBehindAll, item.callsBehind_of_every hitem hitem',
      if_pos (item.advances_of_every hitem hitem'), callsBehindAll_of_every items hitems hitems']
    rfl

end

/-- A program that only goes forward is stratified, with all its rules on one level. -/
theorem Program.isStratified_of_every {program : Program}
    (hbacktrack : program.Every fun m => m.isBacktrack = false)
    (hexternal : program.Every fun m => m.isExternal = false) : program.IsStratified := by
  refine ⟨fun _ => true, fun _ => 0, ?_, ?_, ?_⟩
  · intro id rule hrule _ alternative halternative
    exact allAdvance_of_every alternative.items
      (fun _ hitem => hbacktrack.ofItem hrule halternative hitem)
      (fun _ hitem => hexternal.ofItem hrule halternative hitem)
  · intro id rule hrule alternative halternative next hnext
    exact Nat.le_refl 0
  · intro id rule hrule alternative halternative next hnext
    rw [callsBehindAll_of_every alternative.items
      (fun _ hitem => hbacktrack.ofItem hrule halternative hitem)
      (fun _ hitem => hexternal.ofItem hrule halternative hitem)] at hnext
    cases hnext

end Peg
