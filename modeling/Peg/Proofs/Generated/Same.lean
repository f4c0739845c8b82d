/-
Peg/Proofs/Generated/Same.lean

Comparing generated parsers.

Tokens and the code of matchers hold lists of themselves, so their equality is
not derived.  `ParserCode.same` compares two parsers part by part, and what it
calls the same is equal.  With it the code that is generated for a grammar can
be checked against code that is written out.
-/
import Peg.Generated.Basic
import Peg.Proofs.Program.Same

namespace Peg

/-! ### Tokens -/

namespace Host

mutual

theorem TokenTree.eq_of_same : ∀ {token other : TokenTree}, token.same other = true → token = other
  | .word _, other, h | .mark _ _, other, h | .literal _, other, h => by
    cases other <;> simp_all [TokenTree.same]
  | .group delimiter inner, other, h => by
    cases other with
    | group delimiter' inner' =>
      rw [TokenTree.same, Bool.and_eq_true, beq_iff_eq] at h
      rw [h.1, eq_of_sameTokens h.2]
    | _ => cases h

theorem eq_of_sameTokens : ∀ {tokens others : Tokens}, sameTokens tokens others = true →
    tokens = others
  | [], [], _ => rfl
  | token :: tokens, other :: others, h => by
    rw [sameTokens, Bool.and_eq_true] at h
    rw [TokenTree.eq_of_same h.1, eq_of_sameTokens h.2]

end

end Host

namespace Generated

open Host

/-! ### Matchers -/

mutual

/-- Whether two matchers are the same code. -/
def MatcherCode.same : MatcherCode → MatcherCode → Bool
  | .literal left, .literal right => left == right
  | .regex left description, .regex right description' =>
    left == right && description == description'
  | .any, .any => true
  | .param, .param => true
  | .rule left, .rule right => left == right
  | .variable left, .variable right => left == right
  | .template left argument, .template right argument' => left == right && argument == argument'
  | .negative left, .negative right => left.same right
  | .look left, .look right => left.same right
  | .attempt left, .attempt right => left.same right
  | .backtrack left, .backtrack right => left.same right
  | .external function left, .external function' right => function == function' && left.same right
  | .group depth left kept, .group depth' right kept' =>
    depth == depth' && sameMatcherCodes left right && kept == kept'
  | .repeated mode left, .repeated mode' right => mode == mode' && left.same right
  | _, _ => false

/-- Whether two lists of matchers are the same code. -/
def sameMatcherCodes : List MatcherCode → List MatcherCode → Bool
  | [], [] => true
  | left :: lefts, right :: rights => left.same right && sameMatcherCodes lefts rights
  | _, _ => false

end

mutual

theorem MatcherCode.eq_of_same : ∀ {left right : MatcherCode}, left.same right = true →
    left = right
  | .literal _, right, h | .regex _ _, right, h | .any, right, h | .param, right, h
  | .rule _, right, h | .variable _, right, h | .template _ _, right, h => by
    cases right <;> simp_all [MatcherCode.same]
  | .negative left, right, h => by
    cases right with
    | negative right => exact congrArg _ (show left = right from MatcherCode.eq_of_same h)
    | _ => cases h
  | .look left, right, h => by
    cases right with
    | look right => exact congrArg _ (show left = right from MatcherCode.eq_of_same h)
    | _ => cases h
  | .attempt left, right, h => by
    cases right with
    | attempt right => exact congrArg _ (show left = right from MatcherCode.eq_of_same h)
    | _ => cases h
  | .backtrack left, right, h => by
    cases right with
    | backtrack right => exact congrArg _ (show left = right from MatcherCode.eq_of_same h)
    | _ => cases h
  | .external function left, right, h => by
    cases right with
    | external function' right =>
      rw [MatcherCode.same, Bool.and_eq_true, beq_iff_eq] at h
      rw [h.1, MatcherCode.eq_of_same h.2]
    | _ => cases h
  | .group depth left kept, right, h => by
    cases right with
    | group depth' right kept' =>
      rw [MatcherCode.same, Bool.and_eq_true, Bool.and_eq_true, beq_iff_eq, beq_iff_eq] at h
      rw [h.1.1, h.2, eq_of_sameMatcherCodes h.1.2]
    | _ => cases h
  | .repeated mode left, right, h => by
    cases right with
    | repeated mode' right =>
      rw [MatcherCode.same, Bool.and_eq_true, beq_iff_eq] at h
      rw [h.1, MatcherCode.eq_of_same h.2]
    | _ => cases h

theorem eq_of_sameMatcherCodes : ∀ {lefts rights : List MatcherCode},
    sameMatcherCodes lefts rights = true → lefts = rights
  | [], [], _ => rfl
  | left :: lefts, right :: rights, h => by
    rw [sameMatcherCodes, Bool.and_eq_true] at h
    rw [MatcherCode.eq_of_same h.1, eq_of_sameMatcherCodes h.2]

end

/-! ### Parsers -/

/-- Whether two alternatives are the same code. -/
def AlternativeCode.same (left right : AlternativeCode) : Bool :=
  left.function == right.function && sameMatcherCodes left.items right.items &&
    match left.result, right.result with
    | none, none => true
    | some left, some right => sameTokens left right
    | _, _ => false

theorem AlternativeCode.eq_of_same {left right : AlternativeCode} (h : left.same right = true) :
    left = right := by
  obtain ⟨function, items, result⟩ := left
  obtain ⟨function', items', result'⟩ := right
  rw [same, Bool.and_eq_true, Bool.and_eq_true, beq_iff_eq] at h
  obtain ⟨⟨rfl, hitems⟩, hresult⟩ := h
  obtain rfl : items = items' := eq_of_sameMatcherCodes hitems
  cases result with
  | none =>
    cases result' with
    | none => rfl
    | some => cases hresult
  | some tokens =>
    cases result' with
    | none => cases hresult
    | some => rw [eq_of_sameTokens hresult]

/-- Whether two rules are the same code. -/
def RuleCode.same (left right : RuleCode) : Bool :=
  left.function == right.function && left.isTemplate == right.isTemplate &&
    sameTokens left.type right.type && left.isUntyped == right.isUntyped &&
    sameLists AlternativeCode.same left.alternatives right.alternatives

theorem RuleCode.eq_of_same {left right : RuleCode} (h : left.same right = true) :
    left = right := by
  obtain ⟨function, isTemplate, type, isUntyped, alternatives⟩ := left
  simp only [same, Bool.and_eq_true, beq_iff_eq] at h
  obtain ⟨⟨⟨⟨rfl, rfl⟩, htype⟩, rfl⟩, halternatives⟩ := h
  rw [eq_of_sameTokens htype,
    eq_of_sameLists (fun _ _ => AlternativeCode.eq_of_same) halternatives]

/-- Whether two parsers are the same code, whatever engine they are linked with. -/
def ParserCode.same (left right : ParserCode) : Bool :=
  left.pastas == right.pastas && left.templateWhitespace == right.templateWhitespace &&
    left.regexes == right.regexes && sameLists RuleCode.same left.rules right.rules

theorem ParserCode.eq_of_same {left right : ParserCode} (h : left.same right = true)
    (hdialect : left.dialect = right.dialect) : left = right := by
  obtain ⟨pastas, templateWhitespace, dialect, regexes, rules⟩ := left
  simp only [same, Bool.and_eq_true, beq_iff_eq] at h
  obtain ⟨⟨⟨rfl, rfl⟩, rfl⟩, hrules⟩ := h
  obtain rfl : dialect = right.dialect := hdialect
  rw [eq_of_sameLists (fun _ _ => RuleCode.eq_of_same) hrules]

end Generated

end Peg
