/-
Peg/Proofs/Sample/GeneratedSums.lean

The generated parser of sums.

The code that is generated for the grammar of sums is written out here, and
that it is generated is found out by generating it.  Three of its rules have
host code for their results.  Once this code means what it says (`host`), the
parser ends as the functions do,

    (code.parse (host other) fuel input).outcome?
      = (parse input).outcome?.map (Outcome.map .own)

with any fuel that is enough for the text.  So it is the generated parser that
computes sums.
-/
import Peg.Generated.Run
import Peg.Proofs.Generated.OfGrammar
import Peg.Proofs.Generated.Same
import Peg.Proofs.Grammar.Meta
import Peg.Proofs.Program.Layered
import Peg.Proofs.Run.Alike
import Peg.Proofs.Sample.Sums

namespace Peg.Sample.Sums

open Generated Host Text

/-! ### The code -/

/-- `v0 + v1.into_iter().sum::<i64>()` -/
def addition : Tokens :=
  [.word "v0", .mark '+' false, .word "v1", .mark '.' false, .word "into_iter",
    .group .parenthesis [], .mark '.' false, .word "sum", .mark ':' true, .mark ':' false,
    .mark '<' false, .word "i64", .mark '>' false, .group .parenthesis []]

/-- `v1` -/
def second : Tokens :=
  [.word "v1"]

/-- `number(&v0)` -/
def conversion : Tokens :=
  [.word "number", .group .parenthesis [.mark '&' false, .word "v0"]]

/-- `rt::Value` -/
def generalType : Tokens :=
  [.word "rt", .mark ':' true, .mark ':' false, .word "Value"]

/-- The code of each alternative. -/
def sumCode : AlternativeCode :=
  ⟨⟨"sum_alt0", false⟩, [.rule ⟨"number", false⟩, .repeated .any (.rule ⟨"plus", false⟩)],
    some addition⟩

def plusCode : AlternativeCode :=
  ⟨⟨"plus_alt0", false⟩, [.template ⟨"default_template", false⟩ "+", .rule ⟨"number", false⟩],
    some second⟩

def numberCode : AlternativeCode :=
  ⟨⟨"number_alt0", false⟩, [.regex 0 "/[0-9]+/", .rule ⟨"ws", false⟩], some conversion⟩

def wsCode : AlternativeCode :=
  ⟨⟨"ws_alt0", false⟩, [.regex 1 "/\\s*/"], none⟩

def templateCode : AlternativeCode :=
  ⟨⟨"default_template_alt0", false⟩, [.param], none⟩

/-- The generated parser. -/
def code : ParserCode where
  pastas := ["\nfn number(text: &str) -> i64 \x7b\n    text.parse().unwrap_or_default()\n\x7d\n"]
  templateWhitespace := true
  dialect := {}
  regexes := [⟨"[0-9]+", ""⟩, ⟨"\\s*", ""⟩]
  rules := [
    ⟨⟨"sum", false⟩, false, [.word "i64"], false, [sumCode]⟩,
    ⟨⟨"plus", false⟩, false, [.word "i64"], false, [plusCode]⟩,
    ⟨⟨"number", false⟩, false, [.word "i64"], false, [numberCode]⟩,
    ⟨⟨"ws", false⟩, false, generalType, true, [wsCode]⟩,
    ⟨⟨"default_template", false⟩, true, generalType, true, [templateCode]⟩]

/-- Whether code is what is generated for a grammar. -/
def isCodeOf (text : List Char) (code : ParserCode) : Bool :=
  (Grammar.ofChars text).toOption.any fun grammar =>
    (ParserCode.ofGrammar grammar .forCodegen).toOption.any (·.same code)

set_option maxRecDepth 100000 in
theorem isCodeOf_source : ∃ text, source = String.ofList text ∧ isCodeOf text code = true :=
  ⟨_, rfl, by decide +kernel⟩

/-- The code is generated for the grammar. -/
theorem generates : ∃ grammar, Grammar.parse source = .ok grammar ∧
    ParserCode.ofGrammar grammar .forCodegen = .ok code := by
  obtain ⟨text, hsource, hcode⟩ := isCodeOf_source
  obtain ⟨grammar, hgrammar, hcode⟩ := Grammar.exists_parse_of_any hcode
  obtain ⟨parser, hparser, hsame⟩ := (Option.any_eq_true _ _).1 hcode
  have hparser := eq_ok_of_toOption hparser
  have hdialect : parser.dialect = code.dialect := by
    obtain ⟨-, -, -, -, -, rfl⟩ := ParserCode.exists_of_ofGrammar hparser
    rfl
  -- code holds lists of itself, so it is compared part by part
  rw [ParserCode.eq_of_same hsame hdialect] at hparser
  exact ⟨grammar, hsource ▸ hgrammar, hparser⟩

/-! ### The host code -/

/-- An integer, if a value is one. -/
def own? : HostValue Int64 → Option Int64
  | .own value => some value
  | _ => none

/-- The meaning of `addition`, given the values of the variables. -/
def added? : List (HostValue Int64) → Option (HostValue Int64)
  | [.own first, .vector others] =>
    (others.mapM own?).map fun others => .own (first + others.foldl (· + ·) 0)
  | _ => none

/-- The meaning of `conversion`. -/
def converted? : List (HostValue Int64) → Option (HostValue Int64)
  | .text text :: _ => some (.own (integerOf text))
  | _ => none

/-- The meaning of an expression of the grammar, if it has one.  The three lists of tokens are all
the expressions of the sample: `sum`, `plus` and `number` have a mapper each, `addition`, `second`
and `conversion`, and `ws` and `default_template` have none.  An expression that is none of them is
left to the host. -/
def evaluate? (expression : Tokens) (values : List (HostValue Int64)) : Option (HostValue Int64) :=
  if sameTokens expression addition then added? values
  else if sameTokens expression second then values[1]?
  else if sameTokens expression conversion then converted? values
  else none

/-- Host code that gives the expressions of the grammar their meaning. -/
def host (other : HostCode Int64) : HostCode Int64 where
  general := other.general
  transform := other.transform
  evaluate expression frame :=
    (evaluate? expression (frame.locals.map (·.value))).getD (other.evaluate expression frame)

theorem mapM_own? (values : List Int64) :
    (values.map HostValue.own).mapM own? = some values := by
  induction values with
  | nil => rfl
  | cons value values ih =>
    rw [List.map_cons, List.mapM_cons, ih]
    rfl

theorem evaluate?_addition (first : Int64) (others : List Int64) :
    evaluate? addition [.own first, .vector (others.map .own)] =
      some (.own (first + others.foldl (· + ·) 0)) := by
  rw [evaluate?, if_pos (by decide), added?, mapM_own?]
  rfl

theorem evaluate?_second (gap value : HostValue Int64) :
    evaluate? second [gap, value] = some value := by
  rw [evaluate?, if_neg (by decide), if_pos (by decide)]
  rfl

theorem evaluate?_conversion (text : String) (blanks : HostValue Int64) :
    evaluate? conversion [.text text, blanks] = some (.own (integerOf text)) := by
  rw [evaluate?, if_neg (by decide), if_neg (by decide), if_pos (by decide)]
  rfl

/-- None of the expressions asks for the text that is matched. -/
theorem isMatchedText_eq_false : isMatchedText addition = false ∧ isMatchedText second = false ∧
    isMatchedText conversion = false := by
  decide +kernel

/-! ### Alternatives -/

/-- An integer of the host. -/
abbrev IsOwn (value : Int64) (inner : HostValue Int64) : Prop :=
  inner = .own value

/-- A text of the host. -/
abbrev IsText (value : Value) (inner : HostValue Int64) : Prop :=
  inner = .text value.text

variable {α β : Type} {other : HostCode Int64} {step : CodeStep Int64} {param : Option String}
variable {input : List Char} {start : Nat}

theorem text_alike (outcome : Outcome String) :
    Run.Alike IsText 0 (Run.primitive (outcome.map .str)) (Run.primitive (outcome.map .text)) := by
  cases outcome with
  | success text stop => exact .success_here _ _ _ rfl
  | failure failure => exact .failure_here ..
  | fault fault => exact .fault ..

/-- An alternative with one item ends as its item does. -/
theorem single_alike {same : α → HostValue Int64 → Prop} {run : Run α} {item : MatcherCode}
    {function : Identifier} {result : Option Tokens} {isUntyped : Bool}
    (h : ∀ environment, Run.Alike same 0 run (step environment param item input (0 + start))) :
    Run.Alike (fun _ _ => True) 0 run
      ((AlternativeCode.mk function [item] result).run (host other) step isUntyped param input
        (0 + start)) := by
  have hitem := h (Environment.bind (fun _ => none) 0 [])
  -- the statement for the item, the end of the sequence and the result
  show Run.Alike _ 0 run (Run.andThen (Run.andThen (Run.andThen (step _ param item _ _) _) _) _)
  simp only [Run.andThen_assoc, Run.done_andThen]
  exact hitem.andThen_right fun _ _ stop _ => .success _ _ stop trivial

/-- An alternative with two items and a mapper ends as the second item does after the first, if
this is what the mapper makes of their values. -/
theorem pair_alike {same : α → HostValue Int64 → Prop} {run : Run α} {next : α → Nat → Run Int64}
    {first second : MatcherCode} {function : Identifier} {expression : Tokens}
    (hexpression : isMatchedText expression = false)
    (hfirst : ∀ environment, Run.Alike same 0 run (step environment param first input (0 + start)))
    (hsecond : ∀ value inner stop environment, same value inner →
      Run.Alike (fun total inner' => evaluate? expression [inner, inner'] = some (.own total)) 0
        (next value stop) (step environment param second input (0 + stop))) :
    Run.Alike IsOwn 0 (run.andThen next)
      ((AlternativeCode.mk function [first, second] (some expression)).run (host other) step false
        param input (0 + start)) := by
  have hone := hfirst (Environment.bind (fun _ => none) 0 [])
  -- grouped the other way, what follows the first item is a sequence with one item
  show Run.Alike _ 0 _ (Run.andThen (Run.andThen (Run.andThen (step _ param first _ _) _) _) _)
  simp only [Run.andThen_assoc, Run.done_andThen]
  refine hone.andThen fun value inner stop hvalue => ?_
  show Run.Alike _ 0 _ (Run.andThen (Run.andThen (Run.andThen (step _ param second _ _) _) _) _)
  simp only [Run.andThen_assoc, Run.done_andThen]
  refine (hsecond value inner stop _ hvalue).andThen_right fun total inner' stop hvalues =>
    .success _ _ stop ?_
  simp only [AlternativeCode.resultIn, HostCode.evaluateIn, hexpression]
  show (evaluate? expression [inner, inner']).getD _ = _
  rw [hvalues]
  rfl

/-! ### Rules -/

/-- A regular expression of the code. -/
theorem regex_alike {expression : Expression} {number : Nat} {description : String}
    (hregex : code.regex number = expression.regex)
    (hdescription : Regex.describe expression.source "" = description)
    {environment : Environment Int64} {fuel : Nat} :
    Run.Alike IsText 0 (regex expression input start)
      (code.matcher (host other) (fuel + 1) environment param (.regex number description) input
        (0 + start)) := by
  rw [Nat.zero_add, ← hdescription]
  show Run.Alike _ 0 _ (Run.primitive (Outcome.map _ (Primitive.regex (code.regex number) _ _ _)))
  rw [hregex]
  exact text_alike _

variable {environment : Environment Int64} (fuel start : Nat)

theorem ws_alike :
    Run.Alike (fun _ _ => True) 0 (ws input start)
      (code.matcher (host other) (fuel + 2) environment param (.rule ⟨"ws", false⟩) input
        (0 + start)) := by
  rw [ws, alternative_single]
  show Run.Alike _ 0 _ (AlternativeCode.run wsCode (host other) _ true none input (0 + start))
  exact single_alike fun _ => regex_alike rfl rfl

theorem number_alike :
    Run.Alike IsOwn 0 (number input start)
      (code.matcher (host other) (fuel + 3) environment param (.rule ⟨"number", false⟩) input
        (0 + start)) := by
  show Run.Alike _ 0 _ (AlternativeCode.run numberCode (host other) _ false none input (0 + start))
  refine pair_alike isMatchedText_eq_false.2.2 (fun _ => regex_alike rfl rfl)
    fun value inner stop _ hvalue => ?_
  rw [← Run.andThen_done]
  refine (ws_alike fuel stop).andThen_left fun _ blanks stop _ => .success _ _ stop ?_
  rw [hvalue, evaluate?_conversion]

theorem template_alike :
    Run.Alike (fun _ _ => True) 0 (template "+" input start)
      (code.matcher (host other) (fuel + 2) environment param
        (.template ⟨"default_template", false⟩ "+") input (0 + start)) := by
  rw [template_eq]
  show Run.Alike _ 0 _ (Run.andThen
    (AlternativeCode.run templateCode (host other) _ true (some "+") input (0 + start)) _)
  have hparam : ∀ environment, Run.Alike IsText 0 (literal "+" input start)
      (code.matcher (host other) (fuel + 1) environment (some "+") .param input (0 + start)) := by
    intro environment
    rw [Nat.zero_add]
    exact text_alike _
  refine (single_alike hparam).andThen fun _ _ stop _ => ?_
  rw [Nat.zero_add]
  exact .success_here _ _ _ trivial

theorem plus_alike :
    Run.Alike IsOwn 0 (plus input start)
      (code.matcher (host other) (fuel + 4) environment param (.rule ⟨"plus", false⟩) input
        (0 + start)) := by
  show Run.Alike _ 0 _ (AlternativeCode.run plusCode (host other) _ false none input (0 + start))
  refine pair_alike isMatchedText_eq_false.2.1 (fun _ => template_alike (fuel + 1) start)
    fun _ gap stop _ _ => (number_alike fuel stop).mono fun value inner hvalue => ?_
  rw [hvalue, evaluate?_second]

theorem number_ends : (number input start).Ends := by
  refine (Program.regex_ends ..).andThen (.any _) fun _ stop _ => .mapValue _ ?_
  rw [ws, alternative_single]
  exact Program.regex_ends ..

theorem plus_ends : (plus input start).Ends := by
  refine Run.Ends.andThen ?_ (.any _) fun _ stop _ => number_ends stop
  rw [template_eq]
  exact (Program.literal_ends ..).andThen (.any _) fun _ _ _ => .success _ _ _

/-- What is added has a plus sign, so it goes forward. -/
theorem plus_steady : Program.Steady input start (plus input start) := by
  refine plus_ensures.mono ?_ fun _ h => h
  rintro value stop ⟨addend, hslice, -⟩
  obtain ⟨rest, hrest, rfl⟩ := slice?_eq_some_iff.1 hslice
  exact .ofCut _ hrest fun _ => rfl

/-- The fuel is enough for all numbers that the text can hold. -/
theorem others_alike (hfuel : size input < fuel + 4) :
    Run.Alike (fun values inners => inners = values.map .own) 0
      (Combinator.many (attempts input) plus input start)
      (Combinator.many (fuel + 4)
        (code.matcher (host other) (fuel + 4) environment param (.rule ⟨"plus", false⟩)) input
        (0 + start)) := by
  have hends := fun {fuel : Nat} (hfuel : size input < fuel) =>
    Combinator.many_ends_of_steady plus_ends plus_steady hfuel start
  -- the functions make another number of attempts, but neither number is ever used up
  rw [Combinator.many_eq_of_ends (hends (show size input < attempts input by unfold attempts; omega))
    (hends hfuel)]
  refine (Combinator.many_alike (fun start => plus_alike fuel start) (fuel + 4) start).mono
    fun values inners hinners => ?_
  exact (map_eq_of_forall₂ (hinners.imp fun _ _ => Eq.symm)).symm

theorem sum_alike (hfuel : size input < fuel + 4) :
    Run.Alike IsOwn 0 (Sums.sum input start)
      (code.call (host other) (fuel + 5) ⟨"sum", false⟩ none input (0 + start)) := by
  show Run.Alike _ 0 _ (AlternativeCode.run sumCode (host other) _ false none input (0 + start))
  refine pair_alike isMatchedText_eq_false.1 (fun _ => number_alike (fuel + 2) start)
    fun value first stop _ hfirst => ?_
  refine (others_alike fuel stop hfuel).mapValue fun values inners hinners => ?_
  rw [hfirst, hinners, evaluate?_addition]

/-- The generated parser ends as the functions do. -/
theorem outcome?_code (other : HostCode Int64) (input : List Char) {fuel : Nat}
    (hfuel : size input + 6 ≤ fuel) :
    (code.parse (host other) fuel input).outcome? =
      (parse input).outcome?.map (Outcome.map .own) := by
  obtain ⟨fuel, rfl⟩ := Nat.exists_eq_add_of_le' (show 5 ≤ fuel by omega)
  exact Run.Alike.outcome_map (sum_alike fuel 0 (by omega))

/-! ### Sums -/

/-- The parser that is generated for the grammar computes sums.  A sum that is written down is read
to its end, whatever else than blanks, a digit or a plus sign comes next, and nothing but a sum
that is written down is read.  Its value is the sum of the numbers, unless that is too large; there
are no negative numbers, so the sums on the way to it are no larger. -/
theorem sums_computed :
    (∃ grammar, Grammar.parse source = .ok grammar ∧
      ParserCode.ofGrammar grammar .forCodegen = .ok code) ∧
    ∀ (other : HostCode Int64) (input : List Char),
      (∀ fuel, size input + 6 ≤ fuel → (code.parse (host other) fuel input).outcome? =
        (parse input).outcome?.map (Outcome.map .own)) ∧
      (∀ (sum : Written) (suffix : List Char), input = sum.text ++ suffix → EndsSum suffix →
        ∃ value, (parse input).outcome? = some (.success value (size sum.text)) ∧
          (sum.total ≤ greatest → value.toInt = sum.total)) ∧
      ∀ value stop, (parse input).outcome? = some (.success value stop) →
        ∃ (sum : Written) (rest : List Char), input = sum.text ++ rest ∧ stop = size sum.text ∧
          (sum.total ≤ greatest → value.toInt = sum.total) := by
  refine ⟨generates, fun other input => ⟨fun fuel hfuel => outcome?_code other input hfuel, ?_, ?_⟩⟩
  · rintro sum suffix rfl hsuffix
    exact ⟨_, outcome?_parse sum hsuffix, toInt_ofNat_total⟩
  · intro value stop hparse
    obtain ⟨sum, rest, hinput, hstop, rfl⟩ := exists_written hparse
    exact ⟨sum, rest, hinput, hstop, toInt_ofNat_total⟩

/-- `1 + 22 +3` -/
def threeNumbers : Written where
  first := ⟨['1'], [' '], by decide, List.all_eq_true.1 rfl, List.all_eq_true.1 rfl⟩
  others := [
    ⟨[' '], ⟨['2', '2'], [' '], by decide, List.all_eq_true.1 rfl, List.all_eq_true.1 rfl⟩,
      List.all_eq_true.1 rfl⟩,
    ⟨[], ⟨['3'], [], by decide, List.all_eq_true.1 rfl, List.all_eq_true.1 rfl⟩,
      List.all_eq_true.1 rfl⟩]

/-- Host code that has nothing else to say. -/
def plainHost : HostCode Int64 where
  general _ := .absent
  evaluate _ _ := .absent
  transform _ body := body

theorem threeNumbers_computed :
    size "1 + 22 +3;".toList + 6 ≤ 16 ∧ EndsSum [';'] ∧ threeNumbers.total ≤ greatest ∧
    ∃ value, (code.parse (host plainHost) 16 "1 + 22 +3;".toList).outcome? =
        some (.success (.own value) 9) ∧ value.toInt = 26 ∧
      ∃ (sum : Written) (rest : List Char), "1 + 22 +3;".toList = sum.text ++ rest ∧
        9 = size sum.text ∧ (sum.total ≤ greatest → value.toInt = sum.total) := by
  have hfuel : size "1 + 22 +3;".toList + 6 ≤ 16 := by decide
  have hends : EndsSum [';'] := by decide
  have htotal : threeNumbers.total ≤ greatest := by decide
  have htext : "1 + 22 +3;".toList = threeNumbers.text ++ [';'] := by decide
  obtain ⟨hcode, hwritten, hread⟩ := sums_computed.2 plainHost "1 + 22 +3;".toList
  obtain ⟨value, hparse, hvalue⟩ := hwritten threeNumbers [';'] htext hends
  refine ⟨hfuel, hends, htotal, value, ?_, hvalue htotal, hread value _ hparse⟩
  rw [hcode 16 hfuel, hparse]
  rfl

end Peg.Sample.Sums
