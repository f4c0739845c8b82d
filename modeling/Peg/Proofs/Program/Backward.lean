/-
Peg/Proofs/Program/Backward.lean

Backward matching of literals.

A backward match runs its body on the text before its start, turned round
character by character, and a group of literals reads their concatenation
where it comes next (`outcome?_literals`) and fails elsewhere
(`outcome?_literals_refused`).  So a group of literals matches backward where
the text before the start ends with the concatenation turned round:

    passed.reverse = word ++ rest   iff   passed = rest.reverse ++ word.reverse

Offsets count bytes, of which a character has up to four, but a word has as
many of them as the word turned round.  So the match ends at the cut between
the two parts, however the word is split into literals.
-/
import Peg.Proofs.Program.Reads
import Peg.Proofs.Text.Boundary

namespace Peg

open Text

namespace Program

variable (program : Program) (fuel : Nat)

/-! ### Literals one after the other -/

/-- The text of several literals one after the other. -/
def joined (literals : List String) : List Char :=
  literals.flatMap String.toList

theorem joined_cons (string : String) (literals : List String) :
    joined (string :: literals) = string.toList ++ joined literals := rfl

variable {input rest text : List Char} {start : Nat} {literals : List String}

/-- Literals are read where their concatenation comes next. -/
theorem outcome?_literals (param : Option String) (previous : List Capture)
    (h : dropBytes? input start = some (joined literals ++ rest)) :
    ∃ captures : List Capture, captures.map (·.value) = literals.map .str ∧
      (Combinator.sequence
          (itemsOf (program.matcher (fuel + 1)) (literals.map .literal) param) previous input
          start).outcome? =
        some (.success (previous ++ captures) (start + Text.size (joined literals))) := by
  induction literals generalizing start previous with
  | nil =>
    refine ⟨[], rfl, ?_⟩
    rw [List.append_nil]
    rfl
  | cons string literals ih =>
    rw [joined_cons, List.append_assoc] at h
    obtain ⟨captures, hvalues, hothers⟩ := ih _ (dropBytes?_add h)
    refine ⟨⟨.str string, ⟨start, start + Text.size string.toList⟩⟩ :: captures, ?_, ?_⟩
    · rw [List.map_cons, List.map_cons, hvalues]
    · rw [List.map_cons, outcome?_itemsOf_cons (outcome?_literal_of_append h), hothers,
        List.append_assoc, List.singleton_append, joined_cons, size_append, Nat.add_assoc]

/-- Elsewhere one of them fails. -/
theorem outcome?_literals_refused (param : Option String) (previous : List Capture)
    (htext : dropBytes? input start = some text) (h : ¬ joined literals <+: text) :
    ∃ failure : Failure,
      (Combinator.sequence
          (itemsOf (program.matcher (fuel + 1)) (literals.map .literal) param) previous input
          start).outcome? = some (.failure failure) := by
  induction literals generalizing start previous text with
  | nil => exact absurd List.nil_prefix h
  | cons string literals ih =>
    by_cases hstring : string.toList <+: text
    · -- the first literal is read, so the others do not come next after it
      obtain ⟨text', rfl⟩ := hstring
      rw [joined_cons, List.prefix_append_right_inj] at h
      obtain ⟨failure, hothers⟩ := ih _ (dropBytes?_add htext) h
      refine ⟨failure, ?_⟩
      rw [List.map_cons, outcome?_itemsOf_cons (outcome?_literal_of_append htext), hothers]
    · refine ⟨⟨string, start⟩, ?_⟩
      rw [List.map_cons]
      apply outcome?_itemsOf_refused
      apply outcome?_literal_of_not_prefix htext hstring

/-! ### Groups of literals, backward -/

variable (scope : Scope) {passed : List Char}

/-- A group of literals matches backward where the text before the start ends with their
concatenation turned round. -/
theorem outcome?_backtrack_literals (important : List Nat)
    (hpassed : takeBytes? input start = some passed) (h : (joined literals).reverse <:+ passed) :
    (program.matcher (fuel + 3) scope (.backtrack (.group (literals.map .literal) important)) input
        start).outcome? =
      some (.success (.ofItems (project (literals.map .str) important))
        (start - Text.size (joined literals))) := by
  obtain ⟨before, rfl⟩ := h
  have hreverse : (before ++ (joined literals).reverse).reverse =
      joined literals ++ before.reverse := by
    rw [List.reverse_append, List.reverse_reverse]
  obtain ⟨captures, hvalues, hitems⟩ := outcome?_literals program fuel scope.param []
    (dropBytes?_zero (joined literals ++ before.reverse))
  obtain ⟨hle, -⟩ := slice?_of_suffix hpassed ⟨before, rfl⟩
  rw [size_reverse] at hle
  rw [matcher]
  apply Combinator.outcome?_backtrack hpassed _ hle
  rw [hreverse, matcher, Run.outcome?_mapValue, matchItems_eq, hitems, List.nil_append,
    Nat.zero_add, ← hvalues]
  rfl

/-- It fails everywhere else, and not where one of the literals has failed. -/
theorem outcome?_backtrack_literals_refused (important : List Nat)
    (hpassed : takeBytes? input start = some passed) (h : ¬ (joined literals).reverse <:+ passed) :
    (program.matcher (fuel + 3) scope (.backtrack (.group (literals.map .literal) important)) input
        start).outcome? = some (.failure ⟨"<backtrack>", start⟩) := by
  have hprefix : ¬ joined literals <+: passed.reverse := by
    rwa [← List.reverse_suffix, List.reverse_reverse]
  obtain ⟨failure, hitems⟩ := outcome?_literals_refused program fuel scope.param []
    (dropBytes?_zero passed.reverse) hprefix
  rw [matcher]
  apply Combinator.outcome?_backtrack_refused hpassed
  rw [matcher, Run.outcome?_mapValue, matchItems_eq, hitems]
  rfl

/-- A group of literals matches backward just where the text before the start ends with their
concatenation turned round.  Then the match ends that many bytes before the start, the text between
the two offsets is the concatenation turned round, and the values are the literals in their order,
of which a group with important items keeps those.  Everywhere else it fails where it started.

Of any body a backward match sees nothing that follows its start. -/
theorem backtrack_matches_suffix (program : Program) (fuel : Nat) (scope : Scope) :
    (∀ (literals : List String) (important : List Nat) (input passed : List Char) (start : Nat),
      takeBytes? input start = some passed →
      let outcome? := (program.matcher (fuel + 3) scope
        (.backtrack (.group (literals.map .literal) important)) input start).outcome?
      ((∃ value stop, outcome? = some (.success value stop)) ↔
        (joined literals).reverse <:+ passed) ∧
      (∀ value stop, outcome? = some (.success value stop) →
        stop + Text.size (joined literals) = start ∧
          slice? input stop start = some (joined literals).reverse ∧
          value = .ofItems (project (literals.map .str) important)) ∧
      (¬ (joined literals).reverse <:+ passed →
        outcome? = some (.failure ⟨"<backtrack>", start⟩))) ∧
    ∀ (inner : Matcher) (input input' : List Char) (start : Nat),
      takeBytes? input start = takeBytes? input' start →
        program.matcher fuel scope (.backtrack inner) input start =
          program.matcher fuel scope (.backtrack inner) input' start := by
  constructor
  · intro literals important input passed start hpassed outcome?
    have hmatches : (joined literals).reverse <:+ passed → outcome? = _ :=
      outcome?_backtrack_literals program fuel scope important hpassed
    have hrefuses : ¬ (joined literals).reverse <:+ passed → outcome? = _ :=
      outcome?_backtrack_literals_refused program fuel scope important hpassed
    -- a success away from the suffix would be the failure that is known
    have hsuffix : ∀ value stop, outcome? = some (.success value stop) →
        (joined literals).reverse <:+ passed := by
      intro value stop hsuccess
      by_contra hno
      have hfailure := hsuccess.symm.trans (hrefuses hno)
      cases hfailure
    refine ⟨⟨fun ⟨value, stop, h⟩ => hsuffix value stop h, fun h => ⟨_, _, hmatches h⟩⟩, ?_,
      hrefuses⟩
    intro value stop hsuccess
    obtain ⟨hle, hslice⟩ := slice?_of_suffix hpassed (hsuffix value stop hsuccess)
    rw [size_reverse] at hle hslice
    -- there is only one outcome, so this is the success that is known
    have hsame := hsuccess.symm.trans (hmatches (hsuffix value stop hsuccess))
    obtain ⟨rfl, rfl⟩ := Outcome.success.inj (Option.some.inj hsame)
    exact ⟨Nat.sub_add_cancel hle, hslice, rfl⟩
  · -- only the text before the start is looked at
    intro inner input input' start h
    cases fuel with
    | zero => rfl
    | succ fuel =>
      rw [matcher, matcher]
      apply Combinator.backtrack_congr h

end Program

/-! ### Letters of different widths -/

namespace Widths

/-- Two literals, read backward. -/
def letters : Matcher :=
  .backtrack (.group [.literal "é", .literal "x"] [])

/-- A rule that reads three letters, looks back at the last two and reads these again. -/
def program : Program :=
  ⟨[⟨.simple "again", false, [⟨[.any, .any, .any, letters, .any, .any], none⟩], {}⟩]⟩

/-- A letter of two bytes is the last one before the offset 4, and there is none before 2. -/
theorem letters_match_backward :
    ((program.matcher 3 ⟨none, []⟩ letters ['a', 'x', 'é', 'b'] 4).outcome? =
        some (.success (.tuple [.str "é", .str "x"]) 1) ∧
      slice? ['a', 'x', 'é', 'b'] 1 4 = some ['x', 'é']) ∧
    (program.matcher 3 ⟨none, []⟩ letters ['a', 'x', 'é', 'b'] 2).outcome? =
      some (.failure ⟨"<backtrack>", 2⟩) ∧
    program.matcher 3 ⟨none, []⟩ letters ['a', 'x', 'é', 'b'] 4 =
      program.matcher 3 ⟨none, []⟩ letters ['a', 'x', 'é'] 4 := by
  obtain ⟨hliterals, -⟩ := Program.backtrack_matches_suffix program 0 ⟨none, []⟩
  obtain ⟨-, hbefore⟩ := Program.backtrack_matches_suffix program 3 ⟨none, []⟩
  obtain ⟨hmatches, hfound, -⟩ :=
    hliterals ["é", "x"] [] ['a', 'x', 'é', 'b'] ['a', 'x', 'é'] 4 (by decide)
  obtain ⟨-, -, hrefuses⟩ := hliterals ["é", "x"] [] ['a', 'x', 'é', 'b'] ['a', 'x'] 2 (by decide)
  obtain ⟨value, stop, hsuccess⟩ := hmatches.2 (by decide)
  obtain ⟨hstop, hslice, rfl⟩ := hfound value stop hsuccess
  obtain rfl : stop = 1 := Nat.add_right_cancel hstop
  exact ⟨⟨hsuccess, hslice⟩, hrefuses (by decide), hbefore _ _ _ 4 (by decide)⟩

end Widths

end Peg
