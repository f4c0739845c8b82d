/-
Peg/Proofs/Regex/Language.lean

The language of a regular expression.

`Accepts` says which words an expression matches, without order and without
regard to the place: an assertion accepts the empty word wherever it stands.
`matchLength?` says more than that, for it also knows which match is preferred
and which assertions hold, but whatever it finds is in the language:

    matchLength? r text = some n   →   text = word ++ rest, n = size word, r accepts word

The proof goes over the ways to start.  A way that is finished accepts the
empty word; a way that reads a character accepts it before whatever the rest
of the expression accepts.
-/
import Peg.Proofs.Text.Offset
import Peg.Regex.Basic

namespace Peg.Regex

open Text

/-- The words that an expression matches somewhere. -/
inductive Accepts : Regex → List Char → Prop where
  | empty : Accepts .empty []
  | assertion (condition : Assertion) : Accepts (.assertion condition) []
  | chars {set : CharSet} {c : Char} (h : set.contains c = true) : Accepts (.chars set) [c]
  | seq {first second : Regex} {left right : List Char} (hfirst : Accepts first left)
      (hsecond : Accepts second right) : Accepts (.seq first second) (left ++ right)
  | altLeft {first second : Regex} {word : List Char} (h : Accepts first word) :
      Accepts (.alt first second) word
  | altRight {first second : Regex} {word : List Char} (h : Accepts second word) :
      Accepts (.alt first second) word
  | plus {greedy : Bool} {body : Regex} {left right : List Char} (hbody : Accepts body left)
      (hloop : Accepts (.loop greedy body) right) : Accepts (.plus greedy body) (left ++ right)
  | done {greedy : Bool} {body : Regex} : Accepts (.loop greedy body) []
  | again {greedy : Bool} {body : Regex} {left right : List Char} (hbody : Accepts body left)
      (hloop : Accepts (.loop greedy body) right) : Accepts (.loop greedy body) (left ++ right)

/-! ### Ways to start -/

variable {place : Place}

theorem Accepts.of_followedBy {first second : Regex} {word : List Char}
    (h : (first.followedBy second).Accepts word) : (Regex.seq first second).Accepts word := by
  cases first with
  | empty => exact .seq .empty h
  | _ => exact h

/-- A way to start that is finished accepts the empty word. -/
theorem accepts_nil : ∀ {expression : Regex}, .finish ∈ heads place expression →
    expression.Accepts []
  | .empty, _ => .empty
  | .assertion condition, _ => .assertion condition
  | .chars _, h => by simp [heads] at h
  | .seq first second, h => by
    rw [heads, List.mem_flatMap] at h
    obtain ⟨head, hhead, h⟩ := h
    cases head with
    | finish => exact .seq (accepts_nil hhead) (accepts_nil h)
    | read set rest => simp at h
  | .alt first second, h => by
    rw [heads, List.mem_append] at h
    rcases h with h | h
    · exact .altLeft (accepts_nil h)
    · exact .altRight (accepts_nil h)
  | .plus greedy body, h => by
    rw [heads, List.mem_map] at h
    obtain ⟨head, hhead, h⟩ := h
    cases head with
    | finish => exact .plus (accepts_nil hhead) .done
    | read set rest => cases h
  | .loop greedy body, _ => .done

/-- A way to start that reads a character accepts it before what the rest accepts. -/
theorem accepts_cons {set : CharSet} {rest : Regex} {c : Char} {word : List Char}
    (hc : set.contains c = true) (hrest : rest.Accepts word) :
    ∀ {expression : Regex}, .read set rest ∈ heads place expression →
      expression.Accepts (c :: word)
  | .empty, h => by simp [heads] at h
  | .assertion condition, h => by
    rw [heads] at h
    split at h <;> simp at h
  | .chars set', h => by
    obtain ⟨rfl, rfl⟩ : set = set' ∧ rest = .empty := by simpa [heads] using h
    cases hrest
    exact .chars hc
  | .seq first second, h => by
    rw [heads, List.mem_flatMap] at h
    obtain ⟨head, hhead, h⟩ := h
    cases head with
    | finish => exact .seq (accepts_nil hhead) (accepts_cons hc hrest h)
    | read set' rest' =>
      obtain ⟨rfl, rfl⟩ : set = set' ∧ rest = rest'.followedBy second := by simpa using h
      cases hrest.of_followedBy with
      | seq hleft hright => exact .seq (accepts_cons hc hleft hhead) hright
  | .alt first second, h => by
    rw [heads, List.mem_append] at h
    rcases h with h | h
    · exact .altLeft (accepts_cons hc hrest h)
    · exact .altRight (accepts_cons hc hrest h)
  | .plus greedy body, h => by
    rw [heads, List.mem_map] at h
    obtain ⟨head, hhead, h⟩ := h
    cases head with
    | finish => cases h
    | read set' rest' =>
      obtain ⟨rfl, rfl⟩ : set' = set ∧ rest'.followedBy (.loop greedy body) = rest := by
        simpa using h
      cases hrest.of_followedBy with
      | seq hleft hright => exact .plus (accepts_cons hc hleft hhead) hright
  | .loop greedy body, h => by
    -- stopping reads nothing, so the way is that of another iteration
    obtain ⟨rest', hhead, rfl⟩ : ∃ rest', Head.read set rest' ∈ heads place body ∧
        rest = rest'.followedBy (.loop greedy body) := by
      have hanother : ∃ head ∈ heads place body, ∃ rest', head = .read set rest' ∧
          rest = rest'.followedBy (.loop greedy body) := by
        rw [heads] at h
        split at h <;>
        · simp only [List.mem_append, List.mem_cons, List.mem_filterMap, List.not_mem_nil,
            reduceCtorEq, or_false, false_or] at h
          obtain ⟨head, hhead, h⟩ := h
          cases head with
          | finish => cases h
          | read set' rest' =>
            obtain ⟨rfl, rfl⟩ : set' = set ∧ rest'.followedBy (.loop greedy body) = rest := by
              simpa using h
            exact ⟨_, hhead, rest', rfl, rfl⟩
      obtain ⟨head, hhead, rest', rfl, hrest'⟩ := hanother
      exact ⟨rest', hhead, hrest'⟩
    cases hrest.of_followedBy with
    | seq hleft hright => exact .again (accepts_cons hc hleft hhead) hright

/-! ### Matches -/

theorem mem_headsOfAll {threads : List Regex} {head : Head} :
    head ∈ headsOfAll place threads ↔ ∃ thread ∈ threads, head ∈ heads place thread := by
  rw [headsOfAll, List.mem_eraseDups, List.mem_flatMap]

theorem accepts_nil_of_headsOfAll {threads : List Regex}
    (h : (headsOfAll place threads).contains .finish = true) :
    ∃ thread ∈ threads, thread.Accepts [] := by
  rw [List.contains_iff_mem, mem_headsOfAll] at h
  obtain ⟨thread, hthread, hhead⟩ := h
  exact ⟨thread, hthread, accepts_nil hhead⟩

theorem accepts_of_bestLength? {threads : List Regex} {before : Option Char} {text : List Char}
    {length : Nat} (h : bestLength? threads before text = some length) :
    ∃ thread ∈ threads, ∃ word rest, text = word ++ rest ∧ length = size word ∧
      thread.Accepts word := by
  -- what is kept after a character are threads again, so the induction is on the text
  induction text generalizing threads before length with
  | nil =>
    rw [bestLength?] at h
    split at h
    · rename_i hfinish
      obtain ⟨thread, hthread, haccepts⟩ := accepts_nil_of_headsOfAll hfinish
      exact ⟨thread, hthread, [], [], rfl, (Option.some.inj h).symm, haccepts⟩
    · cases h
  | cons c cs ih =>
    rw [bestLength?] at h
    split at h
    · -- the best thread reads the first character
      rename_i further hfurther
      split at hfurther
      · cases hfurther
      · obtain ⟨next, hmem, word, rest, rfl, rfl, haccepts⟩ := ih hfurther
        rw [List.mem_filterMap] at hmem
        obtain ⟨head, hhead, hreads⟩ := hmem
        have hway := (List.takeWhile_prefix _).subset hhead
        obtain ⟨thread, hthread, hstart⟩ := mem_headsOfAll.1 hway
        cases head with
        | finish => cases hreads
        | read set rest' =>
          rw [Head.afterReading?, Option.ite_none_right_eq_some] at hreads
          obtain ⟨hc, hreads⟩ := hreads
          obtain rfl := Option.some.inj hreads
          exact ⟨thread, hthread, c :: word, rest, rfl, (Option.some.inj h).symm,
            accepts_cons hc haccepts hstart⟩
    · -- none of the further threads comes to an end, so the best one ends here
      split at h
      · rename_i hfinish
        obtain ⟨thread, hthread, haccepts⟩ := accepts_nil_of_headsOfAll hfinish
        exact ⟨thread, hthread, [], c :: cs, rfl, (Option.some.inj h).symm, haccepts⟩
      · cases h

/-- A match is in the language. -/
theorem accepts_of_matchLength? {expression : Regex} {text : List Char} {length : Nat}
    (h : expression.matchLength? text = some length) :
    ∃ word rest, text = word ++ rest ∧ length = size word ∧ expression.Accepts word := by
  obtain ⟨thread, hthread, word, rest, htext, hlength, haccepts⟩ := accepts_of_bestLength? h
  obtain rfl := List.mem_singleton.1 hthread
  exact ⟨word, rest, htext, hlength, haccepts⟩

end Peg.Regex
