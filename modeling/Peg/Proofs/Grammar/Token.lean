/-
Peg/Proofs/Grammar/Token.lean

What the regular expressions of the grammar of grammars read.

For each token there are two directions.  Forward: a word of the written form,
before a text that cannot continue it, is read to its end.  Backward: whatever
is read is a word of that form.  The backward direction only needs the
language of the expression, except for blanks, where it matters that the
reading goes on for as long as it can.

Literals and regular expressions are the same kind of token, a sequence of
plain characters and of pairs of a backslash and another character, up to a
delimiter (`Escaped`).
-/
import Peg.Proofs.Grammar.Meta
import Peg.Proofs.Regex.Loop

namespace Peg

open Text Regex

/-! ### Sets -/

namespace Regex.CharSet

@[simp] theorem contains_single (c d : Char) : (single c).contains d = (d == c) := by
  rw [Bool.eq_iff_iff, single, contains, Bool.and_eq_true, beq_iff_eq, decide_eq_true_iff,
    decide_eq_true_iff]
  constructor
  · rintro ⟨h, h'⟩
    exact Char.le_antisymm h' h
  · rintro rfl
    exact ⟨Char.le_refl _, Char.le_refl _⟩

@[simp] theorem contains_union (left right : CharSet) (c : Char) :
    (union left right).contains c = (left.contains c || right.contains c) := rfl

@[simp] theorem contains_compl (set : CharSet) (c : Char) :
    (compl set).contains c = !set.contains c := rfl

@[simp] theorem contains_blank (c : Char) : (named .blank).contains c = isBlank c := rfl

end Regex.CharSet

namespace Meta

@[simp] theorem contains_except (c d : Char) : (except c).contains d = (d != c) := by
  simp [except, bne]

/-- Letters as the two ranges that the set of identifiers is made of. -/
theorem isAlpha_eq (c : Char) : c.isAlpha =
    (decide ('A' ≤ c ∧ c ≤ 'Z') || (decide ('a' ≤ c) && decide (c ≤ 'z'))) := rfl

@[simp] theorem contains_idStartSet (c : Char) :
    idStartSet.contains c = (c.isAlpha || c == '_') := by
  simp only [idStartSet, CharSet.contains, CharSet.contains_single, isAlpha_eq, Bool.decide_and]
  rw [Bool.or_comm (decide ('a' ≤ c) && _)]

@[simp] theorem contains_digitSet (c : Char) : digitSet.contains c = c.isDigit := rfl

@[simp] theorem contains_idSet (c : Char) : idSet.contains c = (c.isAlphanum || c == '_') := by
  have h : idSet.contains c = (idStartSet.contains c || c.isDigit) := by
    simp only [idSet, idStartSet, CharSet.contains_union, contains_digitSet]
    rw [Bool.or_right_comm]
  rw [h, contains_idStartSet, Char.isAlphanum, Bool.or_right_comm]

/-! ### Refusals -/

variable {word rest text : List Char}

/-- An expression that begins with a set refuses a text that does not. -/
theorem refuses_of_avoids {expression next : Regex} {set : CharSet}
    (hheads : ∀ place, heads place expression = [.read set next]) (h : set.Avoids text) :
    expression.Refuses text := by
  refine Refuses.of_heads fun place head hhead => ?_
  rw [hheads, List.mem_singleton] at hhead
  rw [hhead]
  exact length?_of_avoids h

/-- No identifier begins with anything but a letter or a low line. -/
theorem refuses_id (h : idStartSet.Avoids text) : Token.id.expression.Refuses text :=
  refuses_of_avoids (fun _ => rfl) h

theorem refuses_modifier (h : modifierSet.Avoids text) : Token.modifier.expression.Refuses text :=
  refuses_of_avoids (fun _ => rfl) h

/-- No literal begins without a quote. -/
theorem refuses_literal (h : (CharSet.single '\'').Avoids text) :
    Token.literal.expression.Refuses text :=
  refuses_of_avoids (fun _ => rfl) h

/-- No regular expression begins without a slash. -/
theorem refuses_regex (h : (CharSet.single '/').Avoids text) :
    Token.regex.expression.Refuses text :=
  refuses_of_avoids (fun _ => rfl) h

theorem refuses_variable (h : (CharSet.single '$').Avoids text) :
    Token.variable.expression.Refuses text :=
  refuses_of_avoids (fun _ => rfl) h

/-! ### Simple tokens -/

/-- A type is read as far as its characters go. -/
theorem reads_type (hword : typeSet.Covers word) (hne : word ≠ []) (hrest : typeSet.Avoids rest) :
    Token.type.expression.Reads word rest :=
  reads_plus hword hne hrest

/-- A type that is read is made of such characters. -/
theorem covers_of_accepts_type (h : Token.type.expression.Accepts word) : typeSet.Covers word :=
  h.covers_plus.1

theorem reads_modifier {c : Char} (hc : modifierSet.contains c = true) (rest : List Char) :
    Token.modifier.expression.Reads [c] rest :=
  reads_chars hc rest

/-- A variable is read as far as there are digits. -/
theorem reads_variable (hword : digitSet.Covers word) (hne : word ≠ [])
    (hrest : digitSet.Avoids rest) : Token.variable.expression.Reads ('$' :: word) rest :=
  reads_chars_seq (by decide) (reads_plus hword hne hrest)

/-- The argument of a template is read up to a backquote or the end. -/
theorem reads_template (hword : (except '`').Covers word) (hrest : (except '`').Avoids rest) :
    Token.template.expression.Reads word rest :=
  reads_star hword hrest

/-- An argument that is read holds no backquote. -/
theorem covers_of_accepts_template (h : Token.template.expression.Accepts word) :
    (except '`').Covers word :=
  h.loop_of_star.covers_loop

/-- An identifier is read as far as its characters go. -/
theorem reads_id {c : Char} (hc : idStartSet.contains c = true) (hword : idSet.Covers word)
    (hrest : idSet.Avoids rest) : Token.id.expression.Reads (c :: word) rest :=
  reads_chars_seq hc (reads_star hword hrest)

/-- What is read as an identifier is one. -/
theorem accepts_id (h : Token.id.expression.Accepts word) :
    ∃ c cs, word = c :: cs ∧ idStartSet.contains c = true ∧ idSet.Covers cs := by
  obtain ⟨left, right, rfl, hleft, hright⟩ := accepts_seq_iff.1 h
  obtain ⟨c, hc, rfl⟩ := accepts_chars_iff.1 hleft
  exact ⟨c, right, rfl, hc, hright.loop_of_star.covers_loop⟩

/-! ### Tokens with escapes -/

/-- Characters of a set, and pairs of a backslash and a character of the line. -/
inductive Escaped (set : CharSet) : List Char → Prop where
  | nil : Escaped set []
  | plain {c : Char} {cs : List Char} (hc : set.contains c = true) (h : Escaped set cs) :
      Escaped set (c :: cs)
  | pair {c : Char} {cs : List Char} (hc : c ≠ '\n') (h : Escaped set cs) :
      Escaped set ('\\' :: c :: cs)

variable {set : CharSet} {after : Regex} {word' : List Char}

/-- A text with escapes is read to its end, if neither a backslash nor a character of the set comes
after it. -/
theorem reads_escaped (hset : set.contains '\\' = false) (hword : Escaped set word)
    (havoids : set.Avoids (word' ++ rest))
    (hbackslash : (CharSet.single '\\').Avoids (word' ++ rest)) (hafter : after.Reads word' rest) :
    (Regex.seq (.star true (.alt escapePair (.chars set))) after).Reads (word ++ word') rest := by
  -- the repetition and the loop it becomes start in the same ways
  suffices h : (Regex.seq (.loop true (.alt escapePair (.chars set))) after).Reads
      (word ++ word') rest from h.congr fun _ => rfl
  induction hword with
  | nil =>
    intro before
    rw [bestLength?_singleton, List.nil_append]
    have hheads : ∃ pair next, heads ⟨before, (word' ++ rest).head?⟩
        (.seq (.loop true (.alt escapePair (.chars set))) after) =
        .read (.single '\\') pair :: .read set next ::
          (heads ⟨before, (word' ++ rest).head?⟩ after ++ []) := ⟨_, _, rfl⟩
    obtain ⟨pair, next, hheads⟩ := hheads
    rw [hheads, List.append_nil, List.findSome?_cons, length?_of_avoids hbackslash,
      List.findSome?_cons, length?_of_avoids havoids, ← bestLength?_singleton]
    exact hafter before
  | plain hc h ih =>
    rename_i c cs
    have hother : (CharSet.single '\\').contains c = false := by
      rw [CharSet.contains_single, beq_eq_false_iff_ne]
      rintro rfl
      rw [hset] at hc
      cases hc
    refine Reads.cons (fun _ => ⟨[.read (.single '\\') _], _, rfl, fun head hhead => ?_⟩) hc ih
    rw [List.mem_singleton.1 hhead]
    exact length?_read_other hother
  | pair hc h ih =>
    rename_i c cs
    have hline : (except '\n').contains c = true := by
      rw [contains_except, bne_iff_ne]
      exact hc
    have hpair : (Regex.seq (.seq (.chars (except '\n'))
        (.loop true (.alt escapePair (.chars set)))) after).Reads (c :: (cs ++ word')) rest :=
      Reads.cons (fun _ => ⟨[], _, rfl, nofun⟩) hline ih
    exact Reads.cons (fun _ => ⟨[], _, rfl, nofun⟩) (by decide) hpair

/-- What is read with escapes has each backslash in a pair. -/
theorem Escaped.of_accepts
    (h : (Regex.star true (.alt escapePair (.chars set))).Accepts word) : Escaped set word := by
  refine h.loop_of_star.loop_induction .nil fun left right hleft hright => ?_
  cases hleft with
  | altLeft hpair =>
    obtain ⟨first, second, rfl, hfirst, hsecond⟩ := accepts_seq_iff.1 hpair
    obtain ⟨b, hb, rfl⟩ := accepts_chars_iff.1 hfirst
    obtain ⟨c, hc, rfl⟩ := accepts_chars_iff.1 hsecond
    rw [CharSet.contains_single, beq_iff_eq] at hb
    rw [contains_except, bne_iff_ne] at hc
    rw [hb]
    exact .pair hc hright
  | altRight hplain =>
    obtain ⟨c, hc, rfl⟩ := accepts_chars_iff.1 hplain
    exact .plain hc hright

/-- A literal is read up to the quote that is not escaped, and no further. -/
theorem reads_literal (hword : Escaped literalSet word) (rest : List Char) :
    Token.literal.expression.Reads ('\'' :: (word ++ ['\''])) rest := by
  refine reads_chars_seq (by decide) ?_
  refine reads_escaped (by decide) hword ?_ ?_ (reads_chars (by decide) rest)
  · exact CharSet.avoids_cons.2 (by decide)
  · exact CharSet.avoids_cons.2 (by decide)

/-- A regular expression is read up to the slash that is not escaped, and its flags are read as far
as they go. -/
theorem reads_regex {flags : List Char} (hword : Escaped regexSet word)
    (hflags : flagSet.Covers flags) (hrest : flagSet.Avoids rest) :
    Token.regex.expression.Reads ('/' :: (word ++ '/' :: flags)) rest := by
  refine reads_chars_seq (by decide) ?_
  refine reads_escaped (by decide) hword ?_ ?_
    (reads_chars_seq (by decide) (reads_star hflags hrest))
  · exact CharSet.avoids_cons.2 (by decide)
  · exact CharSet.avoids_cons.2 (by decide)

/-- What is read as a regular expression is a source and flags. -/
theorem accepts_regex (h : Token.regex.expression.Accepts word) :
    ∃ source flags, word = '/' :: (source ++ '/' :: flags) ∧ Escaped regexSet source ∧
      flagSet.Covers flags := by
  obtain ⟨opening, inner, rfl, hopening, hinner⟩ := accepts_seq_iff.1 h
  obtain ⟨source, ending, rfl, hsource, hending⟩ := accepts_seq_iff.1 hinner
  obtain ⟨closing, flags, rfl, hclosing, hflags⟩ := accepts_seq_iff.1 hending
  obtain ⟨o, ho, rfl⟩ := accepts_chars_iff.1 hopening
  obtain ⟨c, hc, rfl⟩ := accepts_chars_iff.1 hclosing
  rw [CharSet.contains_single, beq_iff_eq] at ho hc
  rw [ho, hc]
  exact ⟨source, flags, rfl, .of_accepts hsource, hflags.loop_of_star.covers_loop⟩

end Meta

end Peg
