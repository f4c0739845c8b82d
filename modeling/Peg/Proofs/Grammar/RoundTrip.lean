/-
Peg/Proofs/Grammar/RoundTrip.lean

Writing a grammar and reading it again gives the same grammar.

A grammar that can be written is read back, spans aside, and every grammar
that is read can be written.  So whatever text a grammar comes from, its
written form stands for the same grammar.

One half is about the run of the grammar of grammars on what was written: the
rules read the parts one by one.  The other half is about all its successes:
they have the meanings of their rules.
-/
import Peg.Proofs.Grammar.Check
import Peg.Proofs.Grammar.Sound
import Peg.Proofs.Grammar.Terminates

namespace Peg

open Text Filter

namespace Meta

/-! ### Reading what was written -/

/-- What the entry rule reads of a whole text is what a run gives. -/
theorem outcome?_runRule {name : Name} {source : List Char} {value : Value}
    (h : program.Reads (call name) source [] value) :
    ∃ value', value'.eraseSpans = value ∧
      (program.runRule name.number source 0).outcome? = some (.success value' (size source)) := by
  have hinput : dropBytes? source 0 = some (source ++ []) := by
    rw [dropBytes?_zero, List.append_nil]
  obtain ⟨value', hvalue, hgives⟩ := h source 0 hinput
  obtain ⟨least, hleast⟩ := eventually_atTop.1 hgives
  -- the outcome with enough fuel is the one with the fuel of a run
  obtain ⟨answer, -, hrun, hmore⟩ := terminates name source 0
  have hfuel := hmore (max least (program.fuel source)) (le_max_right _ _)
  have hmatched := hleast (max least (program.fuel source) + 1)
    (Nat.le_succ_of_le (le_max_left _ _)) ⟨none, []⟩
  rw [call, Program.matcher, hfuel, Nat.zero_add] at hmatched
  rw [hrun]
  exact ⟨value', hvalue, hmatched⟩

end Meta

/-- A grammar that can be written is read back from what is written. -/
theorem Grammar.parse_format {grammar : Grammar} (h : grammar.Printable) :
    ∃ grammar', parse grammar.format = .ok grammar' ∧
      grammar'.eraseSpans = grammar.eraseSpans := by
  obtain ⟨value, hvalue, houtcome⟩ := Meta.outcome?_runRule (Meta.reads_grammar h)
  obtain ⟨grammar', hgrammar, herase⟩ := ofTree_of_eraseSpans h hvalue
  refine ⟨grammar', ?_, herase⟩
  rcases parse_eq grammar.format with ⟨events, value', stop, hrun, hparse⟩ |
    ⟨events, failure, hrun, -⟩
  · rw [hrun] at houtcome
    cases houtcome
    rw [hparse, ofMatch, if_neg (Nat.lt_irrefl _), hgrammar]
  · rw [hrun] at houtcome
    cases houtcome

/-! ### Writing what was read -/

/-- Every grammar that is read can be written. -/
theorem Grammar.printable_of_parse {source : String} {grammar : Grammar}
    (h : parse source = .ok grammar) : grammar.Printable := by
  rcases parse_eq source with ⟨events, value, stop, hrun, hparse⟩ | ⟨events, failure, -, hparse⟩
  · rw [hparse, ofMatch] at h
    split at h
    · cases h
    · obtain ⟨word, rest, hmeaning⟩ := Meta.meaning_of_run Meta.sound hrun
      have herase := ofTree_eraseSpans value
      rw [h] at herase
      exact .of_eraseSpans (hmeaning _ herase)
  · rw [hparse] at h
    cases h

/-! ### The round trip -/

/-- Writing and reading is the identity on grammars that can be written, spans aside, and every
grammar that is read is one of these. -/
theorem Grammar.round_trip :
    (∀ grammar : Grammar, grammar.Printable →
      ∃ grammar', parse grammar.format = .ok grammar' ∧
        grammar'.eraseSpans = grammar.eraseSpans) ∧
    ∀ (source : String) (grammar : Grammar), parse source = .ok grammar →
      grammar.Printable ∧ ∃ grammar', parse grammar.format = .ok grammar' ∧
        grammar'.eraseSpans = grammar.eraseSpans := by
  refine ⟨fun grammar h => parse_format h, fun source grammar h => ?_⟩
  have hprintable := printable_of_parse h
  exact ⟨hprintable, parse_format hprintable⟩

namespace Quoted

/-- A grammar with something of each kind.  It is written as follows, after a block of one line:

    words: Vec = sign`#`? (!word '\'\n'*)+ %% first
            second
        | not(.) ;
    word = /\/[^\/]+\./is $0 ;
    sign`s` = s ;
-/
def grammar : Grammar :=
  { pastas := [⟨"use host;", {}⟩]
    rules := [
      ⟨.simple "words", some "Vec", [
        ⟨[⟨.template (some "sign") "#" {}, some .optional, {}⟩,
          ⟨.group [.mk true (.name "word" {}) none {},
            .mk false (.literal "'\n" {}) (some .any) {}] {}, some .oneOrMore, {}⟩],
          some ⟨"first\nsecond", {}⟩, {}⟩,
        ⟨[⟨.apply "not" (.any {}) {}, none, {}⟩], none, {}⟩], {}⟩,
      ⟨.simple "word", none, [
        ⟨[⟨.regex "/[^/]+\\." "is" {}, none, {}⟩, ⟨.variable 0 {}, none, {}⟩], none, {}⟩], {}⟩,
      ⟨.template (some "sign") "s", none, [⟨[⟨.name "s" {}, none, {}⟩], none, {}⟩], {}⟩] }

/-- It can be written, and what is read of it can be written again. -/
theorem reads_again : grammar.Printable ∧ ∃ grammar', Grammar.parse grammar.format = .ok grammar' ∧
    grammar'.eraseSpans = grammar.eraseSpans ∧ grammar'.Printable := by
  have hprintable : grammar.Printable := by decide +kernel
  obtain ⟨grammar', hparse, herase⟩ := Grammar.round_trip.1 grammar hprintable
  obtain ⟨hprintable', -⟩ := Grammar.round_trip.2 grammar.format grammar' hparse
  exact ⟨hprintable, grammar', hparse, herase, hprintable'⟩

end Quoted

end Peg
