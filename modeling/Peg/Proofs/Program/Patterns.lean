/-
Peg/Proofs/Program/Patterns.lean

The regular expressions of a grammar that compiles.

The compiler checks the source of a pattern inside the group that anchors it,
not by itself.  What comes out is an anchor before the expression of the
source, with the same matches at the start of the remaining input, as long as
nothing in the source closes that group:

    the source is an expression by itself and the pattern finds its matches
      iff  its flags are flags and it does not close the group (`Closes`)

Then also no source is refused by itself but accepted as a pattern.
-/
import Peg.Proofs.Generated.OfGrammar
import Peg.Proofs.Program.Correct
import Peg.Proofs.Regex.Backtrack
import Peg.Proofs.Regex.Wrapped

namespace Peg

open Text Generated

/-! ### Patterns that compile -/

section

variable {grammar : Grammar} {options : CompileOptions} {param : Option String}

mutual

/-- The regular expressions of a correct pattern compile. -/
theorem Pattern.Correct.regexes {code : RegexCode} : ∀ {pattern : Pattern} {bound : List Nat},
    pattern.Correct grammar options param bound → code ∈ regexesOf pattern →
      ∃ expression, Regex.pattern? code.source code.flags options.dialect = some expression
  | .regex source flags _, _, h, hcode => by
    rw [regexesOf, List.mem_singleton] at hcode
    rw [hcode]
    exact h
  | .apply _ inner _, _, h, hcode => by
    rcases h with ⟨-, hinner⟩ | ⟨-, -, hliteral⟩ | ⟨-, -, -, -, hinner⟩
    · exact hinner.regexes hcode
    · cases inner with
      | literal string span => cases hcode
      | _ => cases hliteral
    · exact hinner.regexes hcode
  | .group items _, _, h, hcode => CorrectFrom.regexes h hcode
  | .literal _ _, _, _, hcode | .any _, _, _, hcode | .name _ _, _, _, hcode
  | .variable _ _, _, _, hcode | .template _ _ _, _, _, hcode => by cases hcode

theorem CorrectFrom.regexes {code : RegexCode} : ∀ {items : List GroupItem} {outer : List Nat}
    {index : Nat}, CorrectFrom grammar options param outer index items →
      code ∈ regexesOfMembers items →
        ∃ expression, Regex.pattern? code.source code.flags options.dialect = some expression
  | [], _, _, _, hcode => by cases hcode
  | .mk _ pattern _ _ :: items, _, _, h, hcode => by
    rcases List.mem_append.1 hcode with hcode | hcode
    · exact Pattern.Correct.regexes h.1 hcode
    · exact CorrectFrom.regexes h.2 hcode

end

/-- The compiler has made an expression of every pattern of a grammar that it accepts. -/
theorem exists_pattern?_of_compile {program : Program} (h : grammar.compile options = .ok program)
    {code : RegexCode} (hcode : code ∈ grammar.rules.flatMap regexesOfRule) :
    ∃ expression, Regex.pattern? code.source code.flags options.dialect = some expression := by
  obtain ⟨rule, hrule, hcode⟩ := List.mem_flatMap.1 hcode
  obtain ⟨alternative, halternative, hcode⟩ := List.mem_flatMap.1 hcode
  rw [regexesOfAlternative, regexesOfItems_eq_members] at hcode
  have hcorrect := ((Grammar.compile_isOk_iff_correct grammar options).1 ⟨program, h⟩).patterns
  exact (hcorrect rule hrule alternative halternative).regexes hcode

end

/-! ### Sources by themselves -/

namespace Regex

/-- The regular expression that a source is by itself, under the flags with a text. -/
def ofSource? (dialect : Dialect) (source text : String) : Option Regex :=
  (Flags.ofText? dialect text).bind fun flags => parseUnder? dialect flags source

/-- The preferred match at the start of what remains of the input ends at an offset. -/
def MatchesTo (regex : Regex) (input : List Char) (start stop : Nat) : Prop :=
  ∃ rest length, dropBytes? input start = some rest ∧ regex.matchLength? rest = some length ∧
    stop = start + length

/-- Where an expression succeeds as a matcher. -/
theorem exists_success_iff_matchesTo {regex : Regex} {description : String} {input : List Char}
    {start stop : Nat} :
    (∃ value, Primitive.regex regex description input start = .success value stop) ↔
      regex.MatchesTo input start stop := by
  rw [Primitive.regex, MatchesTo]
  rcases dropBytes? input start with - | rest
  · simp
  · dsimp only
    rcases hlength : regex.matchLength? rest with - | length
    · simp [hlength]
    · simp [hlength, eq_comm]

/-- An anchor does not matter at the start of what remains. -/
theorem matchesTo_anchored {regex : Regex} {input : List Char} {start stop : Nat} :
    (Regex.seq (.assertion .textStart) regex).MatchesTo input start stop ↔
      regex.MatchesTo input start stop := by
  simp only [MatchesTo, matchLength?_textStart]
  rfl

end Regex

/-- A pattern of a grammar that compiles has a source that is an expression by itself, and succeeds
where that expression does, just when its flags are flags and the source does not close the group
that it is put in. -/
theorem pattern_standsAlone_iff {grammar : Grammar} {options : CompileOptions} {program : Program}
    (h : grammar.compile options = .ok program) {code : RegexCode}
    (hcode : code ∈ grammar.rules.flatMap regexesOfRule) :
    ∃ pattern, Regex.pattern? code.source code.flags options.dialect = some pattern ∧
      ((∃ regex, Regex.ofSource? options.dialect code.source code.flags = some regex ∧
          ∀ input start stop,
            (∃ value, Primitive.regex pattern (Regex.describe code.source code.flags) input start =
              .success value stop) ↔ regex.MatchesTo input start stop) ↔
        (Regex.Flags.ofText? options.dialect code.flags).isSome ∧
          ¬Regex.Closes options.dialect code.source code.flags) := by
  obtain ⟨pattern, hpattern⟩ := exists_pattern?_of_compile h hcode
  refine ⟨pattern, hpattern, ?_⟩
  rcases hflags : Regex.Flags.ofText? options.dialect code.flags with - | flags
  · rw [Regex.ofSource?, hflags]
    simp
  · -- once the flags can be read, the source is read under them
    have hsource : Regex.ofSource? options.dialect code.source code.flags =
        Regex.parseUnder? options.dialect flags code.source := by
      rw [Regex.ofSource?, hflags, Option.bind_some]
    rw [hsource]
    constructor
    · rintro ⟨regex, hregex, -⟩
      refine ⟨rfl, fun hcloses => ?_⟩
      rw [Regex.parseUnder?_of_closes hflags hcloses] at hregex
      cases hregex
    · rintro ⟨-, hcloses⟩
      rcases Regex.pattern?_eq_some hflags hpattern with hclosed | ⟨regex, hregex, rfl⟩
      · exact absurd hclosed hcloses
      · exact ⟨regex, hregex, fun input start stop =>
          Regex.exists_success_iff_matchesTo.trans Regex.matchesTo_anchored⟩

end Peg

namespace Peg.Splice

open Generated

/-- `a = /…/ ;` with a source between the slashes. -/
def grammar (source : String) : Grammar :=
  { rules := [⟨.simple "a", none, [⟨[⟨.regex source "" {}, none, {}⟩], none, {}⟩], {}⟩] }

/-- An alternation is read as it is alone, so it is anchored as a whole. -/
theorem alternation_standsAlone : ∃ pattern, Regex.pattern? "x|b" "" = some pattern ∧
    ∃ regex, Regex.ofSource? {} "x|b" "" = some regex ∧ ∀ input start stop,
      (∃ value, Primitive.regex pattern (Regex.describe "x|b" "") input start =
        .success value stop) ↔ regex.MatchesTo input start stop := by
  obtain ⟨program, hprogram⟩ : ∃ program, (grammar "x|b").compile {} = .ok program := ⟨_, rfl⟩
  have hcode : ⟨"x|b", ""⟩ ∈ (grammar "x|b").rules.flatMap regexesOfRule := List.mem_cons_self
  obtain ⟨pattern, hpattern, hiff⟩ := pattern_standsAlone_iff hprogram hcode
  refine ⟨pattern, hpattern, hiff.2 ⟨rfl, ?_⟩⟩
  rintro ⟨before, after, hsource, -⟩
  have hmem : ')' ∈ (before ++ ")" ++ after).toList := by simp
  rw [← hsource] at hmem
  exact absurd hmem (by decide)

/-- The grammar with the source `a)|(b` compiles, though this is no regular expression: its first
parenthesis closes the group of the pattern, and what comes after is an alternative to it. -/
theorem unbalanced_compiles : (∃ program, (grammar "a)|(b").compile {} = .ok program) ∧
    ⟨"a)|(b", ""⟩ ∈ (grammar "a)|(b").rules.flatMap regexesOfRule ∧
    Regex.ofSource? {} "a)|(b" "" = none ∧ Regex.Closes {} "a)|(b" "" :=
  ⟨⟨_, rfl⟩, List.mem_cons_self, rfl, "a", "|(b", rfl, rfl⟩

end Peg.Splice
