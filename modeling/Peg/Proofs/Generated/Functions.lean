/-
Peg/Proofs/Generated/Functions.lean

The functions of generated parsers, and when two of them are called alike.

A rule's function is called like the rule, and the functions of its
alternatives are called after that.  No two rules have one name, so the
functions are distinct as far as different names give different identifiers.
They do, with two exceptions: a path word such as `self` gets an underscore and
may meet a rule that has it from the start, and the nameless template is given
a name that another rule may have.

    the functions are distinct   iff   no name meets another one (`Apart`)

That an identifier is raw can be seen from its word, so no difference is lost
where an alternative's function is made from the bare word.
-/
import Mathlib.Data.List.Nodup
import Peg.Proofs.Generated.OfGrammar
import Peg.Proofs.Grammar.Check
import Peg.Proofs.Grammar.Escape
import Peg.Proofs.Program.Correct
import Peg.Proofs.Text.Split

namespace Peg.Generated

open Host

/-! ### Names -/

/-- The function for a rule that has a name or has none. -/
def functionNamed (name : Option String) : Identifier :=
  (name.map Identifier.ofName).getD defaultTemplate

/-- A name gives the function that is another name's by right. -/
inductive Meets : Option String → Option String → Prop where
  | escaped {word : String} (h : word ∈ pathWords) : Meets (some word) (some (word ++ "_"))
  | nameless : Meets none (some "default_template")

theorem meets_some_iff {first second : String} :
    Meets (some first) (some second) ↔ first ∈ pathWords ∧ second = first ++ "_" := by
  constructor
  · rintro ⟨h⟩
    exact ⟨h, rfl⟩
  · rintro ⟨h, rfl⟩
    exact .escaped h

theorem meets_none_iff {name : String} : Meets none (some name) ↔ name = "default_template" := by
  constructor
  · rintro ⟨⟩
    rfl
  · rintro rfl
    exact .nameless

/-- None of the names meets another one. -/
def Apart (names : List (Option String)) : Prop :=
  ∀ first ∈ names, ∀ second ∈ names, ¬Meets first second

instance (first second : Option String) : Decidable (Meets first second) :=
  match first, second with
  | some _, some _ => decidable_of_iff _ meets_some_iff.symm
  | none, some _ => decidable_of_iff _ meets_none_iff.symm
  | _, none => isFalse nofun

instance (names : List (Option String)) : Decidable (Apart names) :=
  inferInstanceAs (Decidable (∀ first ∈ names, ∀ second ∈ names, ¬Meets first second))

/-- A path word with its underscore is neither reserved nor the name of the nameless template. -/
theorem escaped_word {word : String} (h : word ∈ pathWords) :
    word ++ "_" ∉ reservedWords ∧ word ++ "_" ∉ pathWords ∧ word ++ "_" ≠ "default_template" := by
  revert h word
  decide

theorem functionNamed_of_mem {name : String} (h : name ∈ pathWords) :
    functionNamed (some name) = ⟨name ++ "_", false⟩ :=
  if_pos (List.contains_iff_mem.2 h)

theorem functionNamed_of_not_mem {name : String} (h : name ∉ pathWords) :
    functionNamed (some name) = ⟨name, reservedWords.contains name⟩ :=
  if_neg (mt List.contains_iff_mem.1 h)

/-- An identifier is raw just when its word is reserved, so it is known by its word. -/
theorem raw_functionNamed (name : Option String) :
    (functionNamed name).raw = reservedWords.contains (functionNamed name).word := by
  rcases name with - | name
  · decide
  by_cases hpath : name ∈ pathWords
  · have hescaped := mt List.contains_iff_mem.1 (escaped_word hpath).1
    rw [functionNamed_of_mem hpath]
    simpa using hescaped
  · rw [functionNamed_of_not_mem hpath]

theorem functionNamed_eq_iff_word {first second : Option String} :
    functionNamed first = functionNamed second ↔
      (functionNamed first).word = (functionNamed second).word := by
  refine ⟨congrArg _, fun hword => ?_⟩
  have hraw : (functionNamed first).raw = (functionNamed second).raw := by
    rw [raw_functionNamed, raw_functionNamed, hword]
  calc functionNamed first
      = ⟨(functionNamed first).word, (functionNamed first).raw⟩ := rfl
    _ = ⟨(functionNamed second).word, (functionNamed second).raw⟩ := by rw [hword, hraw]

/-- Names that meet have one function. -/
theorem Meets.functionNamed_eq {first second : Option String} (h : Meets first second) :
    functionNamed first = functionNamed second := by
  rw [functionNamed_eq_iff_word]
  cases h with
  | escaped h => rw [functionNamed_of_mem h, functionNamed_of_not_mem (escaped_word h).2.1]
  | nameless => decide

theorem Meets.ne {first second : Option String} (h : Meets first second) : first ≠ second := by
  cases h with
  | escaped h =>
    intro heq
    exact (escaped_word h).2.1 (Option.some.inj heq ▸ h)
  | nameless => exact nofun

/-- The nameless template has the function of one other name. -/
theorem meets_of_nameless {name : String} (h : functionNamed none = functionNamed (some name)) :
    Meets none (some name) := by
  rw [functionNamed_eq_iff_word] at h
  by_cases hpath : name ∈ pathWords
  · rw [functionNamed_of_mem hpath] at h
    exact absurd h.symm (escaped_word hpath).2.2
  · rw [functionNamed_of_not_mem hpath] at h
    obtain rfl : "default_template" = name := h
    exact .nameless

/-- Different names have one function only if one of them meets the other. -/
theorem functionNamed_eq_iff {first second : Option String} :
    functionNamed first = functionNamed second ↔
      first = second ∨ Meets first second ∨ Meets second first := by
  constructor
  · intro h
    rcases first with - | first <;> rcases second with - | second
    · exact .inl rfl
    · exact .inr (.inl (meets_of_nameless h))
    · exact .inr (.inr (meets_of_nameless h.symm))
    · rw [functionNamed_eq_iff_word] at h
      by_cases hfirst : first ∈ pathWords <;> by_cases hsecond : second ∈ pathWords
      · rw [functionNamed_of_mem hfirst, functionNamed_of_mem hsecond] at h
        exact .inl (congrArg some ((String.append_left_inj "_").1 h))
      · rw [functionNamed_of_mem hfirst, functionNamed_of_not_mem hsecond] at h
        obtain rfl : first ++ "_" = second := h
        exact .inr (.inl (.escaped hfirst))
      · rw [functionNamed_of_not_mem hfirst, functionNamed_of_mem hsecond] at h
        obtain rfl : first = second ++ "_" := h
        exact .inr (.inr (.escaped hsecond))
      · rw [functionNamed_of_not_mem hfirst, functionNamed_of_not_mem hsecond] at h
        exact .inl (congrArg some h)
  · rintro (rfl | h | h)
    · rfl
    · exact h.functionNamed_eq
    · exact h.functionNamed_eq.symm

/-- The functions of different names are distinct just when no name meets another one. -/
theorem nodup_functionNamed_iff {names : List (Option String)} (hnames : names.Nodup) :
    (names.map functionNamed).Nodup ↔ Apart names := by
  rw [List.nodup_map_iff_inj_on hnames]
  constructor
  · intro hinj first hfirst second hsecond hmeets
    exact hmeets.ne (hinj first hfirst second hsecond hmeets.functionNamed_eq)
  · intro hapart first hfirst second hsecond h
    rcases functionNamed_eq_iff.1 h with h | h | h
    · exact h
    · exact absurd h (hapart first hfirst second hsecond)
    · exact absurd h (hapart second hsecond first hfirst)

/-! ### Alternatives -/

/-- The name of an alternative's function from its end: the digits, and before them a letter. -/
theorem toList_alternative_reverse (identifier : Identifier) (index : Nat) :
    (identifier.alternative index).word.toList.reverse =
      (Nat.toDigits 10 index).reverse ++ ('t' :: (identifier.word ++ "_al").toList.reverse) := by
  show (identifier.word ++ "_alt" ++ index.repr).toList.reverse = _
  rw [String.toList_append, Nat.toList_repr, List.reverse_append]
  simp

/-- Functions of alternatives are one only for the same alternative of the same function. -/
theorem alternative_eq_iff {first second : Identifier} {index index' : Nat} :
    first.alternative index = second.alternative index' ↔
      first.word = second.word ∧ index = index' := by
  constructor
  · intro h
    have hreverse := congrArg (fun function => function.word.toList.reverse) h
    simp only [toList_alternative_reverse] at hreverse
    have hdigit : ∀ n, ∀ c ∈ (Nat.toDigits 10 n).reverse, c.isDigit = true := fun n c hc =>
      Nat.isDigit_of_mem_toDigits (by decide) (by decide) (List.mem_reverse.1 hc)
    have hletter : ∀ cs : List Char, ∀ c ∈ ('t' :: cs).head?, c.isDigit = false := by
      rintro cs _ ⟨⟩
      decide
    -- both names have the same digits at their end, and the same before the digits
    have hindex := congrArg (List.takeWhile Char.isDigit) hreverse
    have hword := congrArg (List.dropWhile Char.isDigit) hreverse
    rw [Text.takeWhile_append_of_head? (hdigit _) (hletter _),
      Text.takeWhile_append_of_head? (hdigit _) (hletter _)] at hindex
    rw [Text.dropWhile_append_of_head? (hdigit _) (hletter _),
      Text.dropWhile_append_of_head? (hdigit _) (hletter _)] at hword
    refine ⟨?_, ?_⟩
    · have hbefore := List.reverse_injective (List.cons.inj hword).2
      exact (String.append_left_inj "_al").1 (String.toList_injective hbefore)
    · have hnumber := congrArg (Text.numberOf? 10) (List.reverse_injective hindex)
      rw [Token.numberOf?_toDigits, Token.numberOf?_toDigits] at hnumber
      exact Option.some.inj hnumber
  · rintro ⟨hword, rfl⟩
    rw [Identifier.alternative, Identifier.alternative, hword]

/-- The functions of the alternatives of a rule. -/
def alternativeFunctions (rule : Rule) : List Identifier :=
  (List.range rule.alternatives.length).map (functionOf rule.head).alternative

theorem nodup_alternativeFunctions (rule : Rule) : (alternativeFunctions rule).Nodup :=
  List.nodup_range.map fun _ _ h => (alternative_eq_iff.1 h).2

/-- Rules that have alternatives share one of their functions just when they share their own. -/
theorem disjoint_alternativeFunctions_iff {first second : Rule} :
    List.Disjoint (alternativeFunctions first) (alternativeFunctions second) ↔
      (first.alternatives ≠ [] → second.alternatives ≠ [] →
        functionNamed first.head.name? ≠ functionNamed second.head.name?) := by
  simp only [alternativeFunctions, List.disjoint_left, List.mem_map, List.mem_range]
  constructor
  · intro hdisjoint hfirst hsecond heq
    refine hdisjoint ⟨0, List.length_pos_iff.2 hfirst, rfl⟩ ⟨0, List.length_pos_iff.2 hsecond, ?_⟩
    exact alternative_eq_iff.2 ⟨congrArg Identifier.word heq.symm, rfl⟩
  · rintro hne _ ⟨index, hindex, rfl⟩ ⟨index', hindex', heq⟩
    have hfirst := List.length_pos_iff.1 (Nat.zero_lt_of_lt hindex)
    have hsecond := List.length_pos_iff.1 (Nat.zero_lt_of_lt hindex')
    exact hne hfirst hsecond (functionNamed_eq_iff_word.2 (alternative_eq_iff.1 heq).1.symm)

/-- The functions of all alternatives are distinct just when the names of the rules that have any
are apart. -/
theorem nodup_alternatives_iff {rules : List Rule}
    (hnames : (rules.map (·.head.name?)).Nodup) :
    (rules.flatMap alternativeFunctions).Nodup ↔
      Apart ((rules.filter (·.alternatives ≠ [])).map (·.head.name?)) := by
  have hfilter : ((rules.filter (·.alternatives ≠ [])).map (·.head.name?)).Nodup :=
    hnames.sublist (List.filter_sublist.map _)
  rw [← nodup_functionNamed_iff hfilter, List.nodup_flatMap, List.map_map, List.Nodup,
    List.pairwise_map, List.pairwise_filter]
  refine Iff.trans (and_iff_right fun rule _ => nodup_alternativeFunctions rule) ?_
  refine iff_of_eq (congrFun (congrArg List.Pairwise ?_) rules)
  funext first second
  simpa [Function.onFun] using disjoint_alternativeFunctions_iff

theorem alternativesCode_functions {context : Context} {function : Identifier}
    {alternatives : List Alternative} : ∀ {number first : Nat} {codes : List AlternativeCode},
    alternativesCode context function number first alternatives = .ok codes →
      codes.map (·.function) =
        (List.range' number alternatives.length).map function.alternative := by
  induction alternatives with
  | nil =>
    intro number first codes hcodes
    cases hcodes
    rfl
  | cons alternative alternatives ih =>
    intro number first codes hcodes
    obtain ⟨result, -, hcodes⟩ := bind_eq_ok_iff.1 hcodes
    obtain ⟨others, hothers, hcodes⟩ := bind_eq_ok_iff.1 hcodes
    cases hcodes
    rw [List.map_cons, ih hothers]
    rfl

theorem rulesCode_functions {grammar : Grammar} {types : List (Identifier × Tokens)}
    {rules : List Rule} : ∀ {first : Nat} {codes : List RuleCode},
    rulesCode grammar types first rules = .ok codes →
      codes.map (·.function) = rules.map (fun rule => functionNamed rule.head.name?) ∧
      (codes.flatMap fun code => code.alternatives.map (·.function)) =
        rules.flatMap alternativeFunctions := by
  induction rules with
  | nil =>
    intro first codes hcodes
    cases hcodes
    exact ⟨rfl, rfl⟩
  | cons rule rules ih =>
    intro first codes hcodes
    obtain ⟨alternatives, halternatives, hcodes⟩ := bind_eq_ok_iff.1 hcodes
    obtain ⟨others, hothers, hcodes⟩ := bind_eq_ok_iff.1 hcodes
    cases hcodes
    obtain ⟨hfunctions, hothers⟩ := ih hothers
    have hrule := alternativesCode_functions halternatives
    rw [← List.range_eq_range'] at hrule
    refine ⟨congrArg (functionOf rule.head :: ·) hfunctions, ?_⟩
    rw [List.flatMap_cons, List.flatMap_cons, hothers, hrule]
    rfl

/-! ### Parsers -/

/-- The functions that a parser declares for rules. -/
def ParserCode.ruleFunctions (parser : ParserCode) : List Identifier :=
  parser.rules.map (·.function)

/-- The functions that it declares for alternatives. -/
def ParserCode.alternativeFunctions (parser : ParserCode) : List Identifier :=
  parser.rules.flatMap fun rule => rule.alternatives.map (·.function)

/-- The functions of a generated parser are distinct just when no name of a rule meets another
one. -/
theorem functions_distinct_iff {grammar : Grammar} {options : CompileOptions} {parser : ParserCode}
    (h : ParserCode.ofGrammar grammar options = .ok parser) :
    (parser.ruleFunctions.Nodup ↔ Apart (grammar.rules.map (·.head.name?))) ∧
      (parser.alternativeFunctions.Nodup ↔
        Apart ((grammar.rules.filter (·.alternatives ≠ [])).map (·.head.name?))) := by
  obtain ⟨program, types, rules, hprogram, hrules, rfl⟩ := ParserCode.exists_of_ofGrammar h
  have hnames := (checkNames_eq_ok_iff.1 (Grammar.compile_eq_ok_iff.1 hprogram).1).2.1
  obtain ⟨hfunctions, halternatives⟩ := rulesCode_functions hrules
  constructor
  · show (rules.map (·.function)).Nodup ↔ _
    rw [hfunctions, ← nodup_functionNamed_iff hnames, List.map_map]
    rfl
  · show (rules.flatMap fun code => code.alternatives.map (·.function)).Nodup ↔ _
    rw [halternatives]
    exact nodup_alternatives_iff hnames

end Peg.Generated

namespace Peg.Twins

open Generated

/-- A rule that matches a letter. -/
def letter (name string : String) : Rule :=
  ⟨.simple name, none, [⟨[⟨.literal string {}, none, {}⟩], none, {}⟩], {}⟩

/-- `self = 'x' ; try_ = 'y' ; as = 'z' ;` -/
def words : Grammar :=
  { rules := [letter "self" "x", letter "try_" "y", letter "as" "z"] }

/-- Reserved words and words with underscores do not clash as such. -/
theorem words_distinct : ∃ parser, ParserCode.ofGrammar words .forCodegen = .ok parser ∧
    parser.ruleFunctions.Nodup ∧ parser.alternativeFunctions.Nodup := by
  obtain ⟨parser, hparser⟩ : ∃ parser, ParserCode.ofGrammar words .forCodegen = .ok parser :=
    ⟨_, rfl⟩
  obtain ⟨hrules, halternatives⟩ := functions_distinct_iff hparser
  exact ⟨parser, hparser, hrules.2 (by decide), halternatives.2 (by decide)⟩

/-- `self = 'x' ; self_ = 'y' ;` -/
def grammar : Grammar :=
  { rules := [letter "self" "x", letter "self_" "y"] }

/-- The names of these rules are identifiers, and different ones, and a parser is generated.  Both
rules have the function `self_` in it, and both their alternatives `self__alt0`. -/
theorem functions_clash : (∀ rule ∈ grammar.rules, ∀ name ∈ rule.head.name?, IsIdentifier name) ∧
    (grammar.rules.map (·.head.name?)).Nodup ∧
    ∃ parser, ParserCode.ofGrammar grammar .forCodegen = .ok parser ∧
      parser.ruleFunctions = [⟨"self_", false⟩, ⟨"self_", false⟩] ∧
      parser.alternativeFunctions = [⟨"self__alt0", false⟩, ⟨"self__alt0", false⟩] ∧
      ¬parser.ruleFunctions.Nodup ∧ ¬parser.alternativeFunctions.Nodup :=
  ⟨by decide, by decide, _, rfl, rfl, rfl, by decide, by decide⟩

end Peg.Twins
