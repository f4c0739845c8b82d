/-
Peg/Proofs/Regex/Loop.lean

Sequences of characters of a set.

A greedy repetition of a set reads as many characters of the set as there are,
provided that what follows the repetition can then be read.  The three forms a
repetition takes, `star`, `plus` and the `loop` that both become after the
first character, start in the same ways, so one induction serves them all.
-/
import Peg.Proofs.Regex.Backtrack

namespace Peg.Regex

open Text

/-- The text does not start with a character of the set. -/
def CharSet.Avoids (set : CharSet) (text : List Char) : Prop :=
  ∀ c ∈ text.head?, set.contains c = false

/-- Whether a set avoids a text is decided by the first character. -/
theorem CharSet.avoids_cons {set : CharSet} {c : Char} {cs : List Char} :
    set.Avoids (c :: cs) ↔ set.contains c = false := by
  simp [Avoids]

/-- All characters of a word are in the set. -/
def CharSet.Covers (set : CharSet) (word : List Char) : Prop :=
  ∀ c ∈ word, set.contains c = true

/-- A set covers a word of one of its characters. -/
theorem CharSet.covers_replicate {set : CharSet} {c : Char} (hc : set.contains c = true) (n : Nat) :
    set.Covers (List.replicate n c) := by
  intro d hd
  rw [List.eq_of_mem_replicate hd]
  exact hc

variable {set : CharSet} {after : Regex} {word word' rest : List Char}

/-- A set covers a word if it has the first character and covers the others. -/
theorem CharSet.covers_cons {c : Char} :
    set.Covers (c :: word) ↔ set.contains c = true ∧ set.Covers word := by
  simp [Covers]

/-- A character outside the set is not read. -/
theorem length?_of_avoids {next : Regex} (h : set.Avoids rest) :
    (Head.read set next).length? rest = none := by
  cases rest with
  | nil => rfl
  | cons c cs => exact length?_read_other (CharSet.avoids_cons.1 h)

/-! ### Reading -/

/-- A loop, then what comes after it. -/
theorem reads_loop_seq (hword : set.Covers word) (havoids : set.Avoids (word' ++ rest))
    (hafter : after.Reads word' rest) :
    (Regex.seq (.loop true (.chars set)) after).Reads (word ++ word') rest := by
  induction word with
  | nil =>
    intro before
    rw [bestLength?_singleton]
    have hheads : heads ⟨before, (word' ++ rest).head?⟩ (.seq (.loop true (.chars set)) after) =
        .read set (.seq (.loop true (.chars set)) after) ::
          (heads ⟨before, (word' ++ rest).head?⟩ after ++ []) := rfl
    rw [List.nil_append, hheads, List.append_nil, List.findSome?_cons, length?_of_avoids havoids,
      ← bestLength?_singleton]
    exact hafter before
  | cons c word ih =>
    obtain ⟨hc, hword⟩ := CharSet.covers_cons.1 hword
    exact Reads.cons (fun _ => ⟨[], _, rfl, nofun⟩) hc (ih hword)

/-- A repetition, then what comes after it. -/
theorem reads_star_seq (hword : set.Covers word) (havoids : set.Avoids (word' ++ rest))
    (hafter : after.Reads word' rest) :
    (Regex.seq (.star true (.chars set)) after).Reads (word ++ word') rest :=
  (reads_loop_seq hword havoids hafter).congr fun _ => rfl

/-- A loop reads as long as it can, by induction on the word. -/
theorem reads_loop (hword : set.Covers word) (havoids : set.Avoids rest) :
    (Regex.loop true (.chars set)).Reads word rest := by
  induction word with
  | nil =>
    refine Reads.nil fun _ => ⟨[.read set (.loop true (.chars set))], [], rfl, ?_⟩
    intro head hhead
    rw [List.mem_singleton.1 hhead]
    exact length?_of_avoids havoids
  | cons c word ih =>
    obtain ⟨hc, hword⟩ := CharSet.covers_cons.1 hword
    exact Reads.cons (fun _ => ⟨[], _, rfl, nofun⟩) hc (ih hword)

/-- So does a repetition that may be left out. -/
theorem reads_star (hword : set.Covers word) (havoids : set.Avoids rest) :
    (Regex.star true (.chars set)).Reads word rest :=
  (reads_loop hword havoids).congr fun _ => rfl

/-- With at least one character to read, so does one that may not. -/
theorem reads_plus (hword : set.Covers word) (hne : word ≠ []) (havoids : set.Avoids rest) :
    (Regex.plus true (.chars set)).Reads word rest := by
  cases word with
  | nil => exact absurd rfl hne
  | cons c word =>
    obtain ⟨hc, hword⟩ := CharSet.covers_cons.1 hword
    exact Reads.cons (fun _ => ⟨[], _, rfl, nofun⟩) hc (reads_loop hword havoids)

/-- One character, then what comes after it. -/
theorem reads_chars_seq {c : Char} (hc : set.contains c = true) (hafter : after.Reads word rest) :
    (Regex.seq (.chars set) after).Reads (c :: word) rest :=
  Reads.cons (fun _ => ⟨[], _, rfl, nofun⟩) hc hafter

theorem reads_empty (rest : List Char) : Regex.empty.Reads [] rest :=
  Reads.nil fun _ => ⟨[], [], rfl, nofun⟩

theorem reads_chars {c : Char} (hc : set.contains c = true) (rest : List Char) :
    (Regex.chars set).Reads [c] rest :=
  Reads.cons (fun _ => ⟨[], _, rfl, nofun⟩) hc (reads_empty rest)

/-! ### Languages -/

variable {body first second : Regex}

theorem accepts_chars_iff :
    (Regex.chars set).Accepts word ↔ ∃ c, set.contains c = true ∧ word = [c] := by
  constructor
  · intro h
    cases h with
    | chars hc => exact ⟨_, hc, rfl⟩
  · rintro ⟨c, hc, rfl⟩
    exact .chars hc

/-- A sequence accepts the words that can be split into words of its two parts. -/
theorem accepts_seq_iff : (Regex.seq first second).Accepts word ↔
    ∃ left right, word = left ++ right ∧ first.Accepts left ∧ second.Accepts right := by
  constructor
  · intro h
    cases h with
    | seq hfirst hsecond => exact ⟨_, _, rfl, hfirst, hsecond⟩
  · rintro ⟨left, right, rfl, hfirst, hsecond⟩
    exact .seq hfirst hsecond

/-- A repetition is a loop. -/
theorem Accepts.loop_of_star (h : (Regex.star true body).Accepts word) :
    (Regex.loop true body).Accepts word := by
  cases h with
  | altLeft h =>
    cases h with
    | plus hbody hloop => exact .again hbody hloop
  | altRight h =>
    cases h with
    | empty => exact .done

/-- What holds of nothing, and of an iteration before what it holds of, holds of a loop. -/
theorem Accepts.loop_induction {P : List Char → Prop} (h : (Regex.loop true body).Accepts word)
    (hnil : P []) (hstep : ∀ left right, body.Accepts left → P right → P (left ++ right)) :
    P word := by
  generalize hexpression : Regex.loop true body = expression at h
  induction h with
  | done => exact hnil
  | again hbody _ _ ih =>
    cases hexpression
    exact hstep _ _ hbody (ih rfl)
  | _ => cases hexpression

/-- A loop over a set accepts words of the set only. -/
theorem Accepts.covers_loop (h : (Regex.loop true (.chars set)).Accepts word) :
    set.Covers word := by
  refine h.loop_induction nofun fun left right hleft hright => ?_
  obtain ⟨c, hc, rfl⟩ := accepts_chars_iff.1 hleft
  exact CharSet.covers_cons.2 ⟨hc, hright⟩

/-- And at least one iteration is at least one character. -/
theorem Accepts.covers_plus (h : (Regex.plus true (.chars set)).Accepts word) :
    set.Covers word ∧ word ≠ [] := by
  cases h with
  | plus hbody hloop =>
    obtain ⟨c, hc, rfl⟩ := accepts_chars_iff.1 hbody
    exact ⟨CharSet.covers_cons.2 ⟨hc, hloop.covers_loop⟩, nofun⟩

end Peg.Regex
