/-
Peg/Proofs/Text/Split.lean

Lines and trimmed texts.

Splitting at a separator and joining with it undo each other, as long as the
pieces are without separators.  A list of pieces is joined by putting the
separator before every piece but the first; in this form texts that were
joined are read from left to right.
-/
import Mathlib.Data.List.TakeWhile
import Mathlib.Tactic.Common
import Peg.Text.Basic
import Peg.Text.Blank

namespace Peg.Text

/-! ### Splitting and joining -/

variable {separator : Char} {piece : List Char} {pieces : List (List Char)}

theorem joinWith_cons (separator piece : List Char) (pieces : List (List Char)) :
    joinWith separator (piece :: pieces) = piece ++ pieces.flatMap (separator ++ ·) := by
  induction pieces generalizing piece with
  | nil => rw [joinWith, List.flatMap_nil, List.append_nil]
  | cons next pieces ih =>
    rw [joinWith, ih, List.flatMap_cons, List.append_assoc, List.append_assoc]
    exact List.cons_ne_nil _ _

/-- The pieces before one of them end with a separator, and those after it begin with one. -/
theorem joinWith_append_cons (firsts others : List (List Char)) :
    joinWith [separator] (firsts ++ piece :: others) =
      firsts.flatMap (· ++ [separator]) ++ (piece ++ others.flatMap (separator :: ·)) := by
  induction firsts with
  | nil => exact joinWith_cons [separator] piece others
  | cons first firsts ih =>
    have hne : firsts ++ piece :: others ≠ [] :=
      List.append_ne_nil_of_right_ne_nil _ (List.cons_ne_nil _ _)
    rw [List.cons_append, joinWith, ih, List.flatMap_cons]
    · simp
    · exact hne

/-- Pieces without separators, each before one. -/
theorem count_flatMap_append (hpieces : ∀ piece ∈ pieces, separator ∉ piece) :
    (pieces.flatMap (· ++ [separator])).count separator = pieces.length := by
  induction pieces with
  | nil => rfl
  | cons piece pieces ih =>
    obtain ⟨hpiece, hpieces⟩ := List.forall_mem_cons.1 hpieces
    rw [List.flatMap_cons, List.count_append, List.count_append, ih hpieces,
      List.count_eq_zero_of_not_mem hpiece, List.count_singleton_self, List.length_cons]
    exact Nat.add_comm ..

theorem splitOn_ne_nil (cs : List Char) : splitOn separator cs ≠ [] := by
  cases cs with
  | nil => exact List.cons_ne_nil _ _
  | cons c cs =>
    rw [splitOn]
    split
    · exact List.cons_ne_nil _ _
    · split
      · exact List.cons_ne_nil _ _
      · exact List.cons_ne_nil _ _

theorem splitOn_cons_separator (cs : List Char) :
    splitOn separator (separator :: cs) = [] :: splitOn separator cs := by
  rw [splitOn]
  split
  · rename_i hnil
    exact absurd hnil (splitOn_ne_nil cs)
  · rename_i hcs
    rw [if_pos rfl, hcs]

theorem splitOn_cons {c : Char} (hc : c ≠ separator) {cs : List Char}
    (hcs : splitOn separator cs = piece :: pieces) :
    splitOn separator (c :: cs) = (c :: piece) :: pieces := by
  rw [splitOn, hcs]
  exact if_neg hc

theorem splitOn_append {cs : List Char} (hpiece : separator ∉ piece) {first : List Char}
    (hcs : splitOn separator cs = first :: pieces) :
    splitOn separator (piece ++ cs) = (piece ++ first) :: pieces := by
  induction piece with
  | nil => exact hcs
  | cons c piece ih =>
    have hc : c ≠ separator := (List.ne_of_not_mem_cons hpiece).symm
    exact splitOn_cons hc (ih (List.not_mem_of_not_mem_cons hpiece))

/-- Pieces without separators are found again. -/
theorem splitOn_flatMap (hpiece : separator ∉ piece)
    (hpieces : ∀ piece ∈ pieces, separator ∉ piece) :
    splitOn separator (piece ++ pieces.flatMap (separator :: ·)) = piece :: pieces := by
  induction pieces generalizing piece with
  | nil =>
    have hnil : splitOn separator ([].flatMap (separator :: ·)) = [[]] := rfl
    rw [splitOn_append hpiece hnil, List.append_nil]
  | cons next pieces ih =>
    obtain ⟨hnext, hpieces⟩ := List.forall_mem_cons.1 hpieces
    have hothers : splitOn separator ((next :: pieces).flatMap (separator :: ·)) =
        [] :: next :: pieces := by
      rw [List.flatMap_cons, List.cons_append, splitOn_cons_separator, ih hnext hpieces]
    rw [splitOn_append hpiece hothers, List.append_nil]

theorem splitOn_joinWith (hpiece : separator ∉ piece)
    (hpieces : ∀ piece ∈ pieces, separator ∉ piece) :
    splitOn separator (joinWith [separator] (piece :: pieces)) = piece :: pieces := by
  rw [joinWith_cons]
  exact splitOn_flatMap hpiece hpieces

/-- Joined again, the pieces are the text. -/
theorem joinWith_splitOn (separator : Char) (cs : List Char) :
    joinWith [separator] (splitOn separator cs) = cs := by
  induction cs with
  | nil => rfl
  | cons c cs ih =>
    rcases hcs : splitOn separator cs with - | ⟨first, pieces⟩
    · exact absurd hcs (splitOn_ne_nil cs)
    · rw [hcs, joinWith_cons] at ih
      by_cases hc : c = separator
      · rw [hc, splitOn_cons_separator, hcs, joinWith_cons, ← ih]
        rfl
      · rw [splitOn_cons hc hcs, joinWith_cons, List.cons_append, ih]

/-- There is one piece more than there are separators. -/
theorem length_splitOn (separator : Char) (cs : List Char) :
    (splitOn separator cs).length = cs.count separator + 1 := by
  induction cs with
  | nil => rfl
  | cons c cs ih =>
    rcases hcs : splitOn separator cs with - | ⟨first, pieces⟩
    · exact absurd hcs (splitOn_ne_nil cs)
    · by_cases hc : c = separator
      · rw [hc, splitOn_cons_separator, List.length_cons, ih, List.count_cons_self]
      · rw [splitOn_cons hc hcs, List.count_cons_of_ne hc, ← ih, hcs]
        rfl

theorem not_mem_of_mem_splitOn {cs : List Char} (h : piece ∈ splitOn separator cs) :
    separator ∉ piece := by
  induction cs generalizing piece with
  | nil =>
    rw [List.mem_singleton.1 h]
    exact List.not_mem_nil
  | cons c cs ih =>
    rcases hcs : splitOn separator cs with - | ⟨first, pieces⟩
    · exact absurd hcs (splitOn_ne_nil cs)
    · rw [hcs] at ih
      by_cases hc : c = separator
      · rw [hc, splitOn_cons_separator, hcs] at h
        rcases List.mem_cons.1 h with rfl | h
        · exact List.not_mem_nil
        · exact ih h
      · rw [splitOn_cons hc hcs] at h
        rcases List.mem_cons.1 h with rfl | h
        · exact List.not_mem_cons_of_ne_of_not_mem (Ne.symm hc) (ih (List.mem_cons_self ..))
        · exact ih (List.mem_cons_of_mem _ h)

/-- The pieces are somewhere in the text. -/
theorem infix_of_mem_splitOn {cs : List Char} (h : piece ∈ splitOn separator cs) :
    piece <:+: cs := by
  obtain ⟨firsts, others, hsplit⟩ := List.append_of_mem h
  have hjoin := joinWith_splitOn separator cs
  rw [hsplit, joinWith_append_cons, ← List.append_assoc] at hjoin
  exact ⟨_, _, hjoin⟩

/-! ### Trimming -/

/-- A text that neither begins nor ends with a blank. -/
def IsTrimmed (cs : List Char) : Prop :=
  (∀ c ∈ cs.head?, isBlank c = false) ∧ ∀ c ∈ cs.getLast?, isBlank c = false

variable {cs blanks : List Char}

theorem head?_dropWhile (p : Char → Bool) (cs : List Char) :
    ∀ c ∈ (cs.dropWhile p).head?, p c = false := by
  intro c hc
  have := List.head?_dropWhile_not p cs
  rw [Option.mem_def.1 hc] at this
  simpa using this

theorem dropWhile_of_head? {p : Char → Bool} (h : ∀ c ∈ cs.head?, p c = false) :
    cs.dropWhile p = cs := by
  cases cs with
  | nil => rfl
  | cons c cs => exact List.dropWhile_cons_of_neg (by rw [h c rfl]; decide)

/-- A run of characters up to the first one that does not belong to it. -/
theorem takeWhile_append_of_head? {p : Char → Bool} {run : List Char}
    (hrun : ∀ c ∈ run, p c = true) (hcs : ∀ c ∈ cs.head?, p c = false) :
    (run ++ cs).takeWhile p = run := by
  rw [List.takeWhile_append_of_pos hrun]
  cases cs with
  | nil => simp
  | cons c cs => simp [hcs c rfl]

theorem drop_length_takeWhile (p : Char → Bool) (cs : List Char) :
    cs.drop (cs.takeWhile p).length = cs.dropWhile p :=
  calc cs.drop (cs.takeWhile p).length
      = (cs.takeWhile p ++ cs.dropWhile p).drop (cs.takeWhile p).length := by
        rw [List.takeWhile_append_dropWhile]
    _ = cs.dropWhile p := List.drop_left

/-- What follows the run. -/
theorem dropWhile_append_of_head? {p : Char → Bool} {run : List Char}
    (hrun : ∀ c ∈ run, p c = true) (hcs : ∀ c ∈ cs.head?, p c = false) :
    (run ++ cs).dropWhile p = cs := by
  rw [List.dropWhile_append_of_pos hrun, dropWhile_of_head? hcs]

theorem trim_of_isTrimmed (h : IsTrimmed cs) : trim cs = cs := by
  have hlast : ∀ c ∈ cs.reverse.head?, isBlank c = false := by
    rw [List.head?_reverse]
    exact h.2
  rw [trim, dropWhile_of_head? h.1, dropWhile_of_head? hlast, List.reverse_reverse]

/-- What is cut off at the end leaves the beginning alone. -/
theorem trim_prefix (cs : List Char) : trim cs <+: cs.dropWhile isBlank := by
  have hsuffix := List.dropWhile_suffix isBlank (l := (cs.dropWhile isBlank).reverse)
  rw [← List.reverse_prefix, List.reverse_reverse] at hsuffix
  exact hsuffix

theorem isTrimmed_trim (cs : List Char) : IsTrimmed (trim cs) := by
  constructor
  · intro c hc
    obtain ⟨cut, hcut⟩ := trim_prefix cs
    obtain ⟨rest, hrest⟩ := List.head?_eq_some_iff.1 hc
    refine head?_dropWhile isBlank cs c ?_
    rw [← hcut, hrest]
    rfl
  · rw [trim, List.getLast?_reverse]
    exact head?_dropWhile isBlank _

theorem isTrimmed_iff : IsTrimmed cs ↔ trim cs = cs :=
  ⟨trim_of_isTrimmed, fun h => h ▸ isTrimmed_trim cs⟩

theorem mem_of_mem_trim {c : Char} (h : c ∈ trim cs) : c ∈ cs := by
  rw [trim, List.mem_reverse] at h
  have h := (List.dropWhile_sublist isBlank).subset h
  exact (List.dropWhile_sublist isBlank).subset (List.mem_reverse.1 h)

/-- Blanks before a text are trimmed. -/
theorem trim_blanks_append (hblanks : ∀ c ∈ blanks, isBlank c = true) (cs : List Char) :
    trim (blanks ++ cs) = trim cs := by
  rw [trim, List.dropWhile_append_of_pos hblanks, trim]

/-- Blanks after a text are trimmed. -/
theorem trim_append_blanks (hblanks : ∀ c ∈ blanks, isBlank c = true) (h : IsTrimmed cs)
    (hne : cs ≠ []) : trim (cs ++ blanks) = cs := by
  have hhead : ∀ c ∈ (cs ++ blanks).head?, isBlank c = false := by
    cases cs with
    | nil => exact absurd rfl hne
    | cons c cs => exact h.1
  have hreverse : ∀ c ∈ blanks.reverse, isBlank c = true :=
    fun c hc => hblanks c (List.mem_reverse.1 hc)
  have hlast : ∀ c ∈ cs.reverse.head?, isBlank c = false := by
    rw [List.head?_reverse]
    exact h.2
  rw [trim, dropWhile_of_head? hhead, List.reverse_append,
    List.dropWhile_append_of_pos hreverse, dropWhile_of_head? hlast, List.reverse_reverse]

/-- A character that is not blank stays the first one. -/
theorem trim_cons {c : Char} (hc : isBlank c = false) (cs : List Char) :
    ∃ rest, trim (c :: cs) = c :: rest := by
  have hdrop : (c :: cs).dropWhile isBlank = c :: cs :=
    List.dropWhile_cons_of_neg (by rw [hc]; decide)
  have hbegins := trim_prefix (c :: cs)
  rw [hdrop, List.prefix_cons_iff] at hbegins
  rcases hbegins with hnil | ⟨rest, hrest, -⟩
  · rw [trim, hdrop, List.reverse_eq_nil_iff, List.dropWhile_eq_nil_iff] at hnil
    have hblank := hnil c (by simp)
    rw [hc] at hblank
    cases hblank
  · exact ⟨rest, hrest⟩

end Peg.Text
