/-
Peg/Proofs/Regex/Backtrack.lean

The threads of a match are an implementation of backtracking.

`bestLength?` follows all ways to match at once, drops duplicates and cuts off
the threads after one that is finished.  None of this shows in the answer:

    bestLength? threads before text
      = the first answer among all ways to start, in order of preference

where a way that is finished answers at once, and a way that reads a character
answers with what the rest of its expression makes of the rest of the text
(`bestLength?_eq`).  Proofs about single expressions use this equation, in the
form of `Reads` and `Refuses`, and never see threads.
-/
import Peg.Proofs.Regex.Language

namespace Peg.Regex

open Text

/-! ### Ways to start, one after the other -/

/-- The length of the match that a way to start leads to. -/
def Head.length? : Head → List Char → Option Nat
  | .finish, _ => some 0
  | .read _ _, [] => none
  | .read set rest, c :: cs =>
    if set.contains c then (bestLength? [rest] (some c) cs).map (c.utf8Size + ·) else none

/-- Values without an answer do not matter. -/
theorem findSome?_filter {α β : Type} [BEq α] [LawfulBEq α] {f : α → Option β} {value : α}
    (hvalue : f value = none) (values : List α) :
    (values.filter fun other => !other == value).findSome? f = values.findSome? f := by
  induction values with
  | nil => rfl
  | cons other values ih =>
    by_cases hother : other = value
    · rw [List.filter_cons_of_neg (by simp [hother]), List.findSome?_cons, hother, hvalue]
      exact ih
    · rw [List.filter_cons_of_pos (by simp [hother]), List.findSome?_cons, List.findSome?_cons, ih]

/-- Duplicates do not matter when the first answer counts. -/
theorem findSome?_eraseDups {α β : Type} [BEq α] [LawfulBEq α] (f : α → Option β) :
    ∀ values : List α, values.eraseDups.findSome? f = values.findSome? f
  | [] => rfl
  | value :: values => by
    rw [List.eraseDups_cons, List.findSome?_cons, List.findSome?_cons,
      findSome?_eraseDups f (values.filter fun other => !other == value)]
    rcases hvalue : f value with - | answer
    · exact findSome?_filter hvalue values
    · rfl
termination_by values => values.length
decreasing_by
  have := List.length_filter_le (fun other => !other == value) values
  simp only [List.length_cons]
  omega

/-- Ways up to the first finished one, and that one itself. -/
theorem findSome?_ways (c : Char) (cs : List Char) (ways : List Head) :
    (match ((ways.takeWhile (· != .finish)).filterMap (·.afterReading? c)).findSome?
        fun next => bestLength? [next] (some c) cs with
      | some length => some (c.utf8Size + length)
      | none => if ways.contains .finish then some 0 else none) =
    ways.findSome? (·.length? (c :: cs)) := by
  induction ways with
  | nil => rfl
  | cons way ways ih =>
    cases way with
    | finish => rfl
    | read set rest =>
      have htake : (Head.read set rest :: ways).takeWhile (· != .finish) =
          .read set rest :: ways.takeWhile (· != .finish) := rfl
      have hmem : (Head.read set rest :: ways).contains .finish = ways.contains .finish := rfl
      rw [htake, hmem, List.findSome?_cons, ← ih]
      by_cases hc : set.contains c = true
      · rw [List.filterMap_cons_some (by simp only [Head.afterReading?, hc]; rfl),
          List.findSome?_cons, Head.length?, if_pos hc]
        rcases bestLength? [rest] (some c) cs with - | length
        · rfl
        · rfl
      · rw [List.filterMap_cons_none (by simp only [Head.afterReading?, hc]; rfl), Head.length?,
          if_neg hc]

theorem bestLength?_eq (threads : List Regex) (before : Option Char) (text : List Char) :
    bestLength? threads before text =
      (threads.flatMap (heads ⟨before, text.head?⟩)).findSome? (·.length? text) := by
  -- reading a character makes several threads of one, so this is for all lists of threads
  induction text generalizing threads before with
  | nil =>
    rw [bestLength?, ← findSome?_eraseDups, List.head?_nil, ← headsOfAll]
    induction headsOfAll ⟨before, none⟩ threads with
    | nil => rfl
    | cons way ways ih =>
      cases way with
      | finish => rfl
      | read set rest => exact ih
  | cons c cs ih =>
    rw [bestLength?, ← findSome?_eraseDups, List.head?_cons, ← headsOfAll, ← findSome?_ways]
    generalize hnext : (((headsOfAll ⟨before, some c⟩ threads).takeWhile
      (· != .finish)).filterMap (·.afterReading? c)) = next
    -- what is found further on is the first answer of one of the threads
    have hfurther : (if next.isEmpty then none else bestLength? next (some c) cs) =
        next.findSome? fun thread => bestLength? [thread] (some c) cs := by
      cases next with
      | nil => rfl
      | cons first others =>
        rw [List.isEmpty_cons, if_neg Bool.false_ne_true, ih]
        generalize first :: others = threads
        induction threads with
        | nil => rfl
        | cons thread threads iht =>
          rw [List.flatMap_cons, List.findSome?_append, iht, List.findSome?_cons, ih [thread],
            List.flatMap_cons, List.flatMap_nil, List.append_nil]
          generalize (heads ⟨some c, cs.head?⟩ thread).findSome? _ = answer
          cases answer with
          | none => rfl
          | some length => rfl
    exact congrArg (fun further : Option Nat => match further with
      | some length => some (c.utf8Size + length)
      | none => if (headsOfAll ⟨before, some c⟩ threads).contains .finish then some 0 else none)
      hfurther

/-- The first answer among the ways to start. -/
theorem bestLength?_singleton (expression : Regex) (before : Option Char) (text : List Char) :
    bestLength? [expression] before text =
      (heads ⟨before, text.head?⟩ expression).findSome? (·.length? text) := by
  rw [bestLength?_eq, List.flatMap_cons, List.flatMap_nil, List.append_nil]

/-! ### Reading and refusing -/

/-- Before the given rest of the text the preferred match is the given word. -/
def Reads (expression : Regex) (word rest : List Char) : Prop :=
  ∀ before, bestLength? [expression] before (word ++ rest) = some (size word)

/-- There is no match. -/
def Refuses (expression : Regex) (text : List Char) : Prop :=
  ∀ before, bestLength? [expression] before text = none

section

variable {expression next : Regex} {set : CharSet} {c : Char} {word rest text : List Char}

@[simp] theorem length?_finish (text : List Char) : Head.finish.length? text = some 0 := by
  cases text <;> rfl

theorem length?_read_other (hc : set.contains c = false) :
    (Head.read set next).length? (c :: text) = none := by
  rw [Head.length?, hc, if_neg Bool.false_ne_true]

theorem length?_read_refused (h : next.Refuses text) :
    (Head.read set next).length? (c :: text) = none := by
  rw [Head.length?, h (some c), Option.map_none, ite_self]

theorem length?_read (hc : set.contains c = true) (h : next.Reads word rest) :
    (Head.read set next).length? (c :: (word ++ rest)) = some (size (c :: word)) := by
  rw [Head.length?, if_pos hc, h (some c), Option.map_some, size_cons]

/-- Ways that do not apply are skipped. -/
theorem Reads.cons (hheads : ∀ place, ∃ skipped others,
      heads place expression = skipped ++ .read set next :: others ∧
      ∀ head ∈ skipped, head.length? (c :: (word ++ rest)) = none)
    (hc : set.contains c = true) (h : next.Reads word rest) :
    expression.Reads (c :: word) rest := by
  intro before
  rw [bestLength?_singleton, List.cons_append]
  obtain ⟨skipped, others, hways, hskipped⟩ := hheads ⟨before, some c⟩
  rw [List.head?_cons, hways, List.findSome?_append, List.findSome?_eq_none_iff.2 hskipped,
    Option.none_or, List.findSome?_cons, length?_read hc h]

/-- Nothing is read when no way before the first finished one applies. -/
theorem Reads.nil (hheads : ∀ place, ∃ skipped others,
      heads place expression = skipped ++ .finish :: others ∧
      ∀ head ∈ skipped, head.length? rest = none) :
    expression.Reads [] rest := by
  intro before
  rw [bestLength?_singleton, List.nil_append]
  obtain ⟨skipped, others, hways, hskipped⟩ := hheads ⟨before, rest.head?⟩
  rw [hways, List.findSome?_append, List.findSome?_eq_none_iff.2 hskipped, Option.none_or,
    List.findSome?_cons, length?_finish, size_nil]

theorem Refuses.of_heads
    (hheads : ∀ place, ∀ head ∈ heads place expression, head.length? text = none) :
    expression.Refuses text := by
  intro before
  rw [bestLength?_singleton]
  exact List.findSome?_eq_none_iff.2 (hheads _)

/-- Expressions that start in the same ways read the same. -/
theorem Reads.congr {expression' : Regex} (h : expression.Reads word rest)
    (hheads : ∀ place, heads place expression' = heads place expression) :
    expression'.Reads word rest := by
  intro before
  rw [bestLength?_singleton, hheads, ← bestLength?_singleton]
  exact h before

/-- At the beginning of a text the condition to be there holds. -/
theorem matchLength?_textStart (expression : Regex) (text : List Char) :
    (Regex.seq (.assertion .textStart) expression).matchLength? text =
      bestLength? [expression] none text := by
  rw [matchLength?, bestLength?_singleton, bestLength?_singleton]
  have hheads : heads ⟨none, text.head?⟩ (.seq (.assertion .textStart) expression) =
      heads ⟨none, text.head?⟩ expression ++ [] := rfl
  rw [hheads, List.append_nil]

end

end Peg.Regex
