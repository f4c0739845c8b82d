/-
Peg/Proofs/Grammar/Delimited.lean

Tokens tell where they end.

A rule for a single token matches what the regular expression of the token
reads, and nothing else (`matchedBy?_token`).  Literals and regular
expressions that were encoded are therefore matched to their end and no
further, whatever comes next; only flags are not told from letters that follow
a regular expression.  Mappers are delimited by their lines, and the
indentation that writing puts before these is taken off by normalizing.
-/
import Peg.Proofs.Grammar.Check
import Peg.Proofs.Grammar.Escape
import Peg.Proofs.Program.Reads

namespace Peg

open Text Regex

/-! ### Rules that match a token -/

/-- The beginning of a text that a rule of the grammar of grammars matches. -/
def Grammar.matchedBy? (rule text : String) : Option String := do
  let program ← metaProgram.toOption
  let tree ← (program.execute text.toList (some rule) false).toOption
  let word ← takeBytes? text.toList tree.stop
  return String.ofList word

namespace Meta

open Grammar

theorem startRule_text (name : Name) :
    program.startRule (some name.text) = .ok name.number := by
  cases name <;> rfl

/-- A token ends where its expression does. -/
theorem outcome?_token (token : Token) (scope : Scope) (fuel : Nat) (text : List Char) :
    (program.matcher (fuel + 1) scope token.matcher text 0).outcome? = some
      (match token.expression.matchLength? text with
      | some length => .success (.str (String.ofList ((takeBytes? text length).getD []))) length
      | none => .failure ⟨Regex.describe token.source "", 0⟩) := by
  have hlength : (anchored token.expression).matchLength? text =
      token.expression.matchLength? text := matchLength?_textStart _ _
  rw [Token.matcher, Program.matcher, Run.outcome?_primitive]
  simp only [Primitive.regex, dropBytes?_zero, hlength, Nat.zero_add]
  cases token.expression.matchLength? text <;> rfl

section

variable (name : Name) {token : Token} {kind : String}
  (hname : alternativesOf name = [node [token.matcher] kind [0]])

include hname

/-- A rule with one alternative of one token ends where the token does. -/
theorem stop_of_token (text : List Char) :
    (program.execute text (some name.text) false).toOption.map (·.stop) =
      token.expression.matchLength? text := by
  obtain ⟨fuel, hfuel⟩ : ∃ fuel, program.fuel text = fuel + 1 := by
    have hstates : (size text + 2) * (program.rules.length + 2) * (program.size + 2) ≠ 0 :=
      Nat.mul_ne_zero (Nat.mul_ne_zero (by omega) (by omega)) (by omega)
    exact Nat.exists_eq_succ_of_ne_zero (Nat.mul_ne_zero hstates hstates)
  -- the only alternative is the last one, so the rule ends as it does
  let step := program.matcher (fuel + 1)
  have hrule : (program.runRule name.number text 0).outcome? =
      (Program.matchAlternative step (node [token.matcher] kind [0]) none text 0).outcome? := by
    rw [Program.runRule, hfuel, Program.outcome?_matchRule (rules_number name) rfl]
    show (Combinator.choice ((alternativesOf name).map _) text 0).outcome? = _
    rw [hname]
    rfl
  have hitem := outcome?_token token ⟨none, []⟩ fuel text
  simp only [Program.execute, Program.executeWithEvents, startRule_text]
  rcases hlength : token.expression.matchLength? text with - | length
  · rw [hlength] at hitem
    have hitems : (Program.matchItems step [token.matcher] none text 0).outcome? =
        some (.failure ⟨Regex.describe token.source "", 0⟩) :=
      Run.outcome?_andThen_failure (Run.outcome?_andThen_failure hitem)
    have houtcome := hrule.trans (Run.outcome?_andThen_failure hitems)
    obtain ⟨events, hrun⟩ := Run.outcome?_eq_some houtcome
    rw [hrun]
    rfl
  · rw [hlength] at hitem
    let value : Value := .str (String.ofList ((takeBytes? text length).getD []))
    have hitems : (Program.matchItems step [token.matcher] none text 0).outcome? =
        some (.success [⟨value, ⟨0, length⟩⟩] length) :=
      Run.outcome?_andThen (Run.outcome?_andThen hitem)
    have houtcome := hrule.trans (Run.outcome?_andThen hitems)
    obtain ⟨events, hrun⟩ := Run.outcome?_eq_some houtcome
    rw [hrun]
    rfl

/-- A rule for a token matches what its expression does. -/
theorem matchedBy?_token (text : String) : matchedBy? name.text text =
      ((token.expression.matchLength? text.toList).bind (takeBytes? text.toList)).map
        String.ofList := by
  rw [← stop_of_token name hname, matchedBy?, metaProgram_eq]
  show (program.execute text.toList (some name.text) false).toOption.bind _ = _
  cases (program.execute text.toList (some name.text) false).toOption with
  | none => rfl
  | some tree => exact (Option.map_eq_bind ..).symm

/-- What the expression of a token reads is matched, and nothing of what comes next. -/
theorem matchedBy?_of_reads {word rest : String}
    (h : token.expression.Reads word.toList rest.toList) :
    matchedBy? name.text (word ++ rest) = some word := by
  have hlength : token.expression.matchLength? (word.toList ++ rest.toList) =
      some (size word.toList) := h none
  rw [matchedBy?_token name hname, String.toList_append, hlength, Option.bind_some,
    takeBytes?_append, Option.map_some, String.ofList_toList]

/-- What is matched is in the language of the expression. -/
theorem accepts_of_matchedBy? {text word : String} (h : matchedBy? name.text text = some word) :
    token.expression.Accepts word.toList := by
  rw [matchedBy?_token name hname, Option.map_eq_some_iff] at h
  obtain ⟨cs, hcs, rfl⟩ := h
  obtain ⟨length, hlength, htake⟩ := Option.bind_eq_some_iff.1 hcs
  obtain ⟨word, rest, htext, rfl, haccepts⟩ := accepts_of_matchLength? hlength
  rw [htext, takeBytes?_append, Option.some.injEq] at htake
  rw [String.toList_ofList, ← htake]
  exact haccepts

end

end Meta

namespace Token

/-! ### Literals -/

theorem matchedBy?_encodeLiteral (string rest : String) :
    Grammar.matchedBy? "literal" (encodeLiteral string ++ rest) = some (encodeLiteral string) := by
  refine Meta.matchedBy?_of_reads .literal rfl ?_
  rw [encodeLiteral, String.toList_ofList]
  exact Meta.reads_literal (escaped_flatMap string.toList) rest.toList

/-! ### Regular expressions -/

variable {text token : String}

/-- A token that is read has a source and flags that can be written. -/
theorem writable_of_matchedBy? (h : Grammar.matchedBy? "regex" text = some token) :
    RegexSource (decodeRegex token).1.toList ∧ RegexFlags (decodeRegex token).2.toList := by
  have haccepts := Meta.accepts_of_matchedBy? .regex rfl h
  obtain ⟨source, flags, htoken, hsource, hflags⟩ := Meta.accepts_regex haccepts
  rw [covers_flags_iff] at hflags
  have hdecode : decodeRegex token =
      (String.ofList (plainSlashes source), String.ofList flags) := by
    rw [← decodeRegex_of_flags (not_mem_flags hflags), ← htoken, String.ofList_toList]
  rw [hdecode, String.toList_ofList, String.toList_ofList]
  exact ⟨regexSource_plainSlashes hsource, hflags⟩

theorem matchedBy?_encodeRegex {source flags rest : String} (hsource : RegexSource source.toList)
    (hflags : RegexFlags flags.toList) (hrest : Meta.flagSet.Avoids rest.toList) :
    Grammar.matchedBy? "regex" (encodeRegex source flags ++ rest) =
      some (encodeRegex source flags) := by
  refine Meta.matchedBy?_of_reads .regex rfl ?_
  rw [encodeRegex, String.toList_ofList]
  exact Meta.reads_regex (escaped_escapeSlashes hsource) (covers_flags_iff.2 hflags) hrest

/-! ### Mappers -/

/-- A normalized text is found again between its indentation. -/
theorem normalizeMapper_indentMapper_normalizeMapper (raw : String) :
    normalizeMapper (indentMapper (normalizeMapper raw)) = normalizeMapper raw := by
  have hlines : ∀ line ∈ mapperLines raw.toList, IsLine line := fun line hline =>
    isLine_of_mem hline
  rw [normalizeMapper_eq raw]
  generalize mapperLines raw.toList = lines at hlines
  rcases lines with - | ⟨first, others⟩
  · rfl
  · have hcode : (String.ofList (joinWith ['\n'] (first :: others))).toList =
        first ++ others.flatMap ('\n' :: ·) := by
      rw [String.toList_ofList]
      exact joinWith_cons ['\n'] first others
    -- nothing stands in front of the first line, unlike in a grammar that is written
    have hnormalized := normalizeMapper_indentMapper [] nofun nofun hcode hlines
    rw [List.nil_append, String.ofList_toList] at hnormalized
    exact hnormalized

/-! ### All tokens -/

/-- Literals and regular expressions that are encoded are matched to their end, whatever follows,
and decoded to what they were encoded from.  This takes no condition for literals; for regular
expressions it takes a source and flags that come from a token, and a rest that does not go on
with a flag.  Mappers that are normalized are normalized from their indented form. -/
theorem tokens_delimited :
    (∀ string rest : String,
      Grammar.matchedBy? "literal" (encodeLiteral string ++ rest) = some (encodeLiteral string) ∧
      decodeLiteral (encodeLiteral string) = string) ∧
    (∀ text token source flags : String, Grammar.matchedBy? "regex" text = some token →
      decodeRegex token = (source, flags) →
      (∀ rest : String, rest.toList.head? ≠ some 'i' → rest.toList.head? ≠ some 's' →
        Grammar.matchedBy? "regex" (encodeRegex source flags ++ rest) =
          some (encodeRegex source flags)) ∧
      decodeRegex (encodeRegex source flags) = (source, flags)) ∧
    ∀ raw : String, normalizeMapper (indentMapper (normalizeMapper raw)) = normalizeMapper raw := by
  refine ⟨fun string rest =>
    ⟨matchedBy?_encodeLiteral string rest, decodeLiteral_encodeLiteral string⟩, ?_,
    normalizeMapper_indentMapper_normalizeMapper⟩
  intro text token source flags htoken hdecode
  obtain ⟨hsource, hflags⟩ := writable_of_matchedBy? htoken
  rw [hdecode] at hsource hflags
  refine ⟨fun rest hi hs => matchedBy?_encodeRegex hsource hflags ?_,
    decodeRegex_encodeRegex hsource hflags⟩
  intro c hc
  have hne : c ≠ 'i' ∧ c ≠ 's' := by
    constructor
    · rintro rfl
      exact hi hc
    · rintro rfl
      exact hs hc
  simp [Meta.flagSet, hne]

/-- A token with an escaped slash and an escaped backslash.  What is encoded from it is matched
before an `x`. -/
theorem slashes_delimited :
    Grammar.matchedBy? "regex" "/a\\/b\\\\/is;" = some "/a\\/b\\\\/is" ∧
      decodeRegex "/a\\/b\\\\/is" = ("a/b\\\\", "is") ∧
      "x".toList.head? ≠ some 'i' ∧ "x".toList.head? ≠ some 's' ∧
      Grammar.matchedBy? "regex" (encodeRegex "a/b\\\\" "is" ++ "x") =
        some (encodeRegex "a/b\\\\" "is") ∧
      decodeRegex (encodeRegex "a/b\\\\" "is") = ("a/b\\\\", "is") := by
  have hmatched : Grammar.matchedBy? "regex" "/a\\/b\\\\/is;" = some "/a\\/b\\\\/is" :=
    (Meta.matchedBy?_token .regex rfl _).trans (by decide +kernel)
  have hdecode : decodeRegex "/a\\/b\\\\/is" = ("a/b\\\\", "is") := by decide +kernel
  have hi : "x".toList.head? ≠ some 'i' := by decide
  have hs : "x".toList.head? ≠ some 's' := by decide
  obtain ⟨-, hregex, -⟩ := tokens_delimited
  obtain ⟨hwhole, hagain⟩ := hregex _ _ _ _ hmatched hdecode
  exact ⟨hmatched, hdecode, hi, hs, hwhole "x" hi hs, hagain⟩

end Token

end Peg
