/-
Peg/Proofs/Grammar/Layout.lean

What is read across the ends of lines: blanks, comments and mappers.

Blanks and comments are read for as long as there are any, so what follows
them is `Solid`.  That a comment takes everything up to the end of its line,
and not only some of it, is the one place where the preference among matches
decides how a grammar is read.

A mapper goes on over the next line if that line is indented and starts with
none of the characters that a rule could go on with.
-/
import Peg.Proofs.Grammar.Token

namespace Peg.Meta

open Text Regex

variable {word rest text : List Char}

/-! ### Blanks and comments -/

/-- Neither a blank nor a comment follows. -/
def Solid (text : List Char) : Prop :=
  (CharSet.named .blank).Avoids text ∧ ¬ ['-', '-'] <+: text

/-- A text that begins with neither a blank nor a dash is solid. -/
theorem solid_cons {c : Char} {cs : List Char} (hblank : isBlank c = false) (hdash : c ≠ '-') :
    Solid (c :: cs) :=
  ⟨CharSet.avoids_cons.2 hblank, fun h => hdash (List.cons_prefix_cons.1 h).1.symm⟩

/-- The empty text is solid. -/
theorem solid_nil : Solid [] :=
  ⟨nofun, by decide⟩

/-- The word starts with a character that no blanks before it read. -/
def Starts (word : List Char) : Prop :=
  ∃ c cs, word = c :: cs ∧ isBlank c = false ∧ c ≠ '-'

/-- So does the text of a construct begin. -/
theorem starts_cons {c : Char} {cs : List Char} (hblank : isBlank c = false) (hdash : c ≠ '-') :
    Starts (c :: cs) :=
  ⟨c, cs, rfl, hblank, hdash⟩

theorem Starts.ne_nil (h : Starts word) : word ≠ [] := by
  obtain ⟨c, cs, rfl, -⟩ := h
  exact List.cons_ne_nil c cs

/-- More text after it does not matter. -/
theorem Starts.append (h : Starts word) (rest : List Char) : Starts (word ++ rest) := by
  obtain ⟨c, cs, rfl, hblank, hdash⟩ := h
  exact starts_cons hblank hdash

/-- Blanks before a construct end where it begins. -/
theorem Starts.solid (h : Starts word) : Solid word := by
  obtain ⟨c, cs, rfl, hblank, hdash⟩ := h
  exact solid_cons hblank hdash

/-- Blanks and comments, as a loop. -/
def blanks : Regex :=
  .loop true blankOrComment

/-- The second dash of a comment and what follows it. -/
def commentDash : Regex :=
  .seq (.seq (.chars (.single '-')) restOfLine) blanks

/-- The inside of a comment. -/
def commentText : Regex :=
  .seq (.loop true (.chars (except '\n'))) blanks

/-- After the blanks so far there may be another one, a comment, or the end. -/
theorem heads_blanks (place : Place) : heads place blanks =
    [.read (.named .blank) blanks, .read (.single '-') commentDash, .finish] := rfl

/-- Before a solid text there are no blanks, though a single dash is tried as a comment. -/
theorem reads_blanks_nil (h : Solid text) : blanks.Reads [] text := by
  refine Reads.nil fun place => ⟨[.read (.named .blank) blanks, .read (.single '-') commentDash],
    [], heads_blanks place, fun head hhead => ?_⟩
  rw [List.mem_cons, List.mem_singleton] at hhead
  rcases hhead with rfl | rfl
  · exact length?_of_avoids h.1
  · -- a dash alone begins no comment
    cases text with
    | nil => rfl
    | cons c cs =>
      by_cases hc : c = '-'
      · refine length?_read_refused (refuses_of_avoids (fun _ => rfl : ∀ place,
          heads place commentDash = [.read (.single '-') (.seq restOfLine blanks)]) ?_)
        intro d hd
        rw [CharSet.contains_single, beq_eq_false_iff_ne]
        rintro rfl
        obtain ⟨ds, rfl⟩ := List.head?_eq_some_iff.1 hd
        exact h.2 ⟨ds, by rw [hc]; rfl⟩
      · refine length?_read_other ?_
        rw [CharSet.contains_single, beq_eq_false_iff_ne]
        exact hc

/-- Blanks are read as far as they go. -/
theorem reads_blanks (hword : (CharSet.named .blank).Covers word) (hrest : Solid rest) :
    blanks.Reads word rest := by
  induction word with
  | nil => exact reads_blanks_nil hrest
  | cons c word ih =>
    obtain ⟨hc, hword⟩ := CharSet.covers_cons.1 hword
    exact Reads.cons (fun _ => ⟨[], _, rfl, nofun⟩) hc (ih hword)

/-- What is left of a text after the blanks and the comments that it starts with, or of the rest of
a comment and what comes after it. -/
def skipLayout : (inComment : Bool) → List Char → List Char
  | _, [] => []
  | true, c :: cs => skipLayout (c != '\n') cs
  | false, '-' :: '-' :: cs => skipLayout true cs
  | false, c :: cs => if isBlank c then skipLayout false cs else c :: cs

/-- The expression for layout, from outside or from inside of a comment. -/
def layout (inComment : Bool) : Regex :=
  if inComment then commentText else blanks

/-- A comment ends with its line. -/
theorem reads_comment_end (havoids : (except '\n').Avoids (word ++ rest))
    (h : blanks.Reads word rest) : commentText.Reads word rest := by
  have hnil : (except '\n').Covers [] := nofun
  exact reads_loop_seq hnil havoids h

/-- One more character of a line belongs to the comment. -/
theorem reads_comment {c : Char} (h : commentText.Reads word rest) (hline : (c != '\n') = true) :
    commentText.Reads (c :: word) rest := by
  refine Reads.cons (fun _ => ⟨[], _, rfl, nofun⟩) ?_ h
  rw [contains_except]
  exact hline

/-- Two dashes begin a comment. -/
theorem reads_comment_start (h : commentText.Reads word rest) :
    blanks.Reads ('-' :: '-' :: word) rest := by
  have hdash : commentDash.Reads ('-' :: word) rest :=
    Reads.cons (fun _ => ⟨[], _, rfl, nofun⟩) (by decide)
      (h.congr fun _ => rfl : (Regex.seq restOfLine blanks).Reads word rest)
  refine Reads.cons (fun place => ⟨[.read (.named .blank) blanks], _, heads_blanks place,
    fun head hhead => ?_⟩) (by decide) hdash
  rw [List.mem_singleton.1 hhead]
  exact length?_read_other (by decide)

/-- Blanks and comments are read until something else follows; inside a comment so is what is left
of it. -/
theorem reads_layout (inComment : Bool) (text : List Char) :
    Solid (skipLayout inComment text) ∧ ∃ word, text = word ++ skipLayout inComment text ∧
      (layout inComment).Reads word (skipLayout inComment text) := by
  -- the cases of the scanner: the end, inside a comment, before one, a blank, anything else
  fun_induction skipLayout inComment text with
  | case1 inComment =>
    refine ⟨solid_nil, [], rfl, ?_⟩
    cases inComment with
    | false => exact reads_blanks_nil solid_nil
    | true => exact reads_comment_end nofun (reads_blanks_nil solid_nil)
  | case2 c cs ih =>
    obtain ⟨hsolid, word, hword, hreads⟩ := ih
    refine ⟨hsolid, c :: word, congrArg (c :: ·) hword, ?_⟩
    rcases hline : c != '\n' with - | -
    · -- the line feed is the first blank after the comment
      rw [hline] at hreads
      have hblank : isBlank c = true := by
        rw [bne_eq_false_iff_eq] at hline
        rw [hline]
        rfl
      have hcons : blanks.Reads (c :: word) _ :=
        Reads.cons (fun _ => ⟨[], _, rfl, nofun⟩) hblank hreads
      refine reads_comment_end (CharSet.avoids_cons.2 ?_) hcons
      rw [contains_except]
      exact hline
    · rw [hline] at hreads
      exact reads_comment hreads hline
  | case3 cs ih =>
    obtain ⟨hsolid, word, hword, hreads⟩ := ih
    exact ⟨hsolid, '-' :: '-' :: word, congrArg ('-' :: '-' :: ·) hword,
      reads_comment_start hreads⟩
  | case4 c cs hdashes hblank ih =>
    obtain ⟨hsolid, word, hword, hreads⟩ := ih
    exact ⟨hsolid, c :: word, congrArg (c :: ·) hword,
      Reads.cons (fun _ => ⟨[], _, rfl, nofun⟩) hblank hreads⟩
  | case5 c cs hdashes hblank =>
    have hsolid : Solid (c :: cs) := by
      refine ⟨CharSet.avoids_cons.2 (Bool.eq_false_iff.2 hblank), ?_⟩
      rintro ⟨others, hothers⟩
      obtain ⟨rfl, rfl⟩ := List.cons.inj hothers
      exact hdashes others rfl rfl
    exact ⟨hsolid, [], rfl, reads_blanks_nil hsolid⟩

/-- The token is the loop. -/
theorem Reads.blanks_token (h : blanks.Reads word rest) :
    Token.blanks.expression.Reads word rest :=
  h.congr fun _ => rfl

/-- Blanks and comments end where the layout does. -/
theorem skipLayout_of_blanks {length : Nat}
    (h : bestLength? [Token.blanks.expression] none text = some length) :
    ∃ word, text = word ++ skipLayout false text ∧ length = size word := by
  obtain ⟨-, word, hword, hreads⟩ := reads_layout false text
  have hlength := Reads.blanks_token hreads none
  rw [← hword, h] at hlength
  exact ⟨word, hword, Option.some.inj hlength⟩

/-! ### Mappers -/

/-- What later lines of a mapper are indented with. -/
def indentSet : CharSet :=
  .union (.single ' ') (.single '\t')

/-- Indented lines that go on with a mapper. -/
inductive MapperLines : List Char → Prop where
  | nil : MapperLines []
  | line {indent line lines : List Char} {c : Char} (hindent : indentSet.Covers indent)
      (hne : indent ≠ []) (hc : mapperLineSet.contains c = true)
      (hline : (except '\n').Covers line) (h : MapperLines lines) :
      MapperLines ('\n' :: (indent ++ c :: (line ++ lines)))

/-- The next line does not go on with a mapper. -/
def EndsMapper (text : List Char) : Prop :=
  ∃ indent c cs, text = '\n' :: (indent ++ c :: cs) ∧ indentSet.Covers indent ∧
    indentSet.contains c = false ∧ mapperLineSet.contains c = false

/-- The lines after the first. -/
def mapperLoop : Regex :=
  .loop true mapperLine

/-- The indentation of a line and what follows it. -/
def lineIndent : Regex :=
  .seq (.seq (.loop true (.chars indentSet)) (.seq (.chars mapperLineSet) restOfLine)) mapperLoop

/-- A line after its line feed. -/
def lineStart : Regex :=
  .seq (.seq (.plus true (.chars indentSet)) (.seq (.chars mapperLineSet) restOfLine)) mapperLoop

/-- A mapper goes on with another line or ends. -/
theorem heads_mapperLoop (place : Place) :
    heads place mapperLoop = [.read (.single '\n') lineStart, .finish] := rfl

theorem heads_lineStart (place : Place) :
    heads place lineStart = [.read indentSet lineIndent] := rfl

/-- A line of a mapper is indented and then begins with something that no other thing begins with.
-/
theorem heads_lineIndent (place : Place) : heads place lineIndent =
    [.read indentSet lineIndent, .read mapperLineSet (.seq restOfLine mapperLoop)] := rfl

/-- What a line begins with is not part of its indentation. -/
theorem not_contains_indentSet {c : Char} (hc : mapperLineSet.contains c = true) :
    indentSet.contains c = false := by
  rw [Bool.eq_false_iff]
  intro h
  rw [indentSet, CharSet.contains_union, CharSet.contains_single, CharSet.contains_single,
    Bool.or_eq_true, beq_iff_eq, beq_iff_eq] at h
  rcases h with rfl | rfl
  · exact absurd hc (by decide)
  · exact absurd hc (by decide)

/-- A line that begins with anything else, however far indented, is not one of the mapper. -/
theorem refuses_lineIndent {indent cs : List Char} {c : Char} (hindent : indentSet.Covers indent)
    (hc : indentSet.contains c = false) (hc' : mapperLineSet.contains c = false) :
    lineIndent.Refuses (indent ++ c :: cs) := by
  induction indent with
  | nil =>
    refine Refuses.of_heads fun place head hhead => ?_
    rw [heads_lineIndent, List.mem_cons, List.mem_singleton] at hhead
    rcases hhead with rfl | rfl
    · exact length?_read_other hc
    · exact length?_read_other hc'
  | cons i indent ih =>
    obtain ⟨hi, hindent⟩ := CharSet.covers_cons.1 hindent
    refine Refuses.of_heads fun place head hhead => ?_
    rw [heads_lineIndent, List.mem_cons, List.mem_singleton] at hhead
    rcases hhead with rfl | rfl
    · exact length?_read_refused (ih hindent)
    · refine length?_read_other ?_
      rw [Bool.eq_false_iff]
      intro hi'
      rw [not_contains_indentSet hi'] at hi
      cases hi

/-- So the mapper ends before it. -/
theorem reads_mapperLoop_nil (h : EndsMapper rest) : mapperLoop.Reads [] rest := by
  obtain ⟨indent, c, cs, rfl, hindent, hc, hc'⟩ := h
  refine Reads.nil fun place => ⟨[.read (.single '\n') lineStart], [], heads_mapperLoop place,
    fun head hhead => ?_⟩
  rw [List.mem_singleton.1 hhead]
  refine length?_read_refused ?_
  cases indent with
  | nil => exact refuses_of_avoids heads_lineStart (CharSet.avoids_cons.2 hc)
  | cons i indent =>
    refine Refuses.of_heads fun place head hhead => ?_
    rw [heads_lineStart, List.mem_singleton] at hhead
    rw [hhead]
    exact length?_read_refused (refuses_lineIndent (CharSet.covers_cons.1 hindent).2 hc hc')

/-- What ends a mapper begins on a new line. -/
theorem EndsMapper.avoids (h : EndsMapper rest) : (except '\n').Avoids rest := by
  obtain ⟨indent, c, cs, rfl, -⟩ := h
  exact CharSet.avoids_cons.2 (by decide)

theorem MapperLines.avoids (h : MapperLines word) (hrest : EndsMapper rest) :
    (except '\n').Avoids (word ++ rest) := by
  cases h with
  | nil => exact hrest.avoids
  | line _ _ _ _ _ => exact CharSet.avoids_cons.2 (by decide)

/-- Whole lines are read as long as they are lines of the mapper, by induction on the lines. -/
theorem reads_mapperLoop (hword : MapperLines word) (hrest : EndsMapper rest) :
    mapperLoop.Reads word rest := by
  induction hword with
  | nil => exact reads_mapperLoop_nil hrest
  | line hindent hne hc hline h ih =>
    rename_i indent line lines c
    have hrestOfLine : (Regex.seq restOfLine mapperLoop).Reads (line ++ lines) rest :=
      reads_star_seq hline (h.avoids hrest) ih
    have hlineIndent : ∀ indent, indentSet.Covers indent →
        lineIndent.Reads (indent ++ c :: (line ++ lines)) rest := by
      intro indent hindent
      induction indent with
      | nil =>
        refine Reads.cons (fun place => ⟨[.read indentSet lineIndent], _, heads_lineIndent place,
          fun head hhead => ?_⟩) hc hrestOfLine
        rw [List.mem_singleton.1 hhead]
        exact length?_read_other (not_contains_indentSet hc)
      | cons i indent ihindent =>
        obtain ⟨hi, hindent⟩ := CharSet.covers_cons.1 hindent
        exact Reads.cons (fun _ => ⟨[], _, rfl, nofun⟩) hi (ihindent hindent)
    cases indent with
    | nil => exact absurd rfl hne
    | cons i indent =>
      obtain ⟨hi, hindent⟩ := CharSet.covers_cons.1 hindent
      have hlineStart : lineStart.Reads (i :: (indent ++ c :: (line ++ lines))) rest :=
        Reads.cons (fun _ => ⟨[], _, rfl, nofun⟩) hi (hlineIndent indent hindent)
      exact Reads.cons (fun _ => ⟨[], _, rfl, nofun⟩) (by decide) hlineStart

/-- A mapper is the rest of its first line and the lines after that. -/
theorem reads_mapper {lines : List Char} (hword : (except '\n').Covers word)
    (hlines : MapperLines lines) (hrest : EndsMapper rest) :
    Token.mapper.expression.Reads (word ++ lines) rest :=
  reads_star_seq hword (hlines.avoids hrest)
    ((reads_mapperLoop hlines hrest).congr fun _ => rfl :
      (Regex.star true mapperLine).Reads lines rest)

/-- What is read as a mapper is made of such lines. -/
theorem accepts_mapper (h : Token.mapper.expression.Accepts word) :
    ∃ first lines, word = first ++ lines ∧ (except '\n').Covers first ∧ MapperLines lines := by
  obtain ⟨first, lines, rfl, hfirst, hlines⟩ := accepts_seq_iff.1 h
  refine ⟨first, lines, rfl, hfirst.loop_of_star.covers_loop, ?_⟩
  refine hlines.loop_of_star.loop_induction .nil fun left right hleft hright => ?_
  obtain ⟨feed, inner, rfl, hfeed, hinner⟩ := accepts_seq_iff.1 hleft
  obtain ⟨indent, inner, rfl, hindent, hinner⟩ := accepts_seq_iff.1 hinner
  obtain ⟨start, line, rfl, hstart, hline⟩ := accepts_seq_iff.1 hinner
  obtain ⟨f, hf, rfl⟩ := accepts_chars_iff.1 hfeed
  obtain ⟨c, hc, rfl⟩ := accepts_chars_iff.1 hstart
  rw [CharSet.contains_single, beq_iff_eq] at hf
  have hlines := MapperLines.line hindent.covers_plus.1 hindent.covers_plus.2 hc
    hline.loop_of_star.covers_loop hright
  simpa [hf] using hlines

end Peg.Meta
