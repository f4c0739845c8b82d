/-
Peg/Proofs/Generated/RegexTable.lean

The regular expressions of a generated parser, as they are written.

A parser declares a constant for each regular expression, and the matcher for
it borrows the constant.  Declarations and matchers are made by two different
functions, so it takes a proof that they fit.  It is read off the tokens:
`declaredIn` reads declarations, with what the constants are made of, and
`mentionsIn` finds every word that may be the name of a constant, in whatever
brackets it is.  In a call that borrows it for a match it comes with the
description.  Both give

    RX_0  RX_1  RX_2  ...

once each, for the regular expressions of the grammar from left to right
(`regexes_match_uses`).  Nothing else that is generated has such a name, but
what the grammar names itself may: types and mappers, rules and functions that
are called.  They do not borrow constants in the way that matchers do, so these
are told apart in any case; for the other mentions there is `ConstantsApart`.
That it is needed shows a mapper that names a constant
(`constant_named_by_mapper`).
-/
import Mathlib.Data.List.Nodup
import Peg.Generated.Print
import Peg.Proofs.Generated.Functions
import Peg.Proofs.Generated.RegexPlaces
import Peg.Proofs.Grammar.Escape
import Peg.Proofs.Text.Split

namespace Peg.Generated

open Host

/-! ### Declarations -/

/-- What is between the first brackets. -/
def argumentsIn : Tokens → Tokens
  | [] => []
  | .group _ inner :: _ => inner
  | _ :: tokens => argumentsIn tokens

/-- The constants that are declared, with the arguments of the first call in each. -/
def declaredIn : Tokens → List (String × Tokens)
  | .word "static" :: .word "ref" :: .word name :: tokens =>
    (name, argumentsIn tokens) :: declaredIn tokens
  | _ :: tokens => declaredIn tokens
  | [] => []

/-- The name of the constant for a regular expression. -/
def regexName (number : Nat) : String :=
  "RX_" ++ toString number

/-- What a regular expression is made of: its source and its flags. -/
def RegexCode.arguments (regex : RegexCode) : Tokens :=
  text regex.source ++ code "," ++ text regex.flags

/-- A declaration is read up to its end. -/
theorem declaredIn_append (regex : RegexCode) (number : Nat) (rest : Tokens) :
    declaredIn (regex.tokens number ++ rest) =
      (regexName number, regex.arguments) :: declaredIn rest := rfl

/-! ### Mentions -/

/-- Whether a word may be the name of a constant. -/
def isRegexName (word : String) : Bool :=
  "RX_".toList.isPrefixOf word.toList && (word.toList.drop 3).all Char.isDigit

/-- A word like the names of the constants, with the description if it is in a call that borrows
it for a match. -/
abbrev Mention := String × Option String

/-- The name and the description in the arguments of a call that matches a regular expression. -/
def borrowed? : Tokens → Option (String × String)
  | [.mark '&' false, .word name, .mark ',' false, .literal description, .mark ',' false,
      .word "input", .mark ',' false, .word "start"] =>
    if isRegexName name then some (name, description) else none
  | _ => none

mutual

/-- The mentions in a token. -/
def mentionsInside : TokenTree → List Mention
  | .word word => if isRegexName word then [(word, none)] else []
  | .group _ inner =>
    match borrowed? inner with
    | some (name, description) => [(name, some description)]
    | none => mentionsIn inner
  | .mark _ _ | .literal _ => []

/-- The mentions in several tokens, from left to right. -/
def mentionsIn : Tokens → List Mention
  | [] => []
  | token :: tokens => mentionsInside token ++ mentionsIn tokens

end

/-- The mentions in tokens with brackets around them. -/
def mentionsBetween (inner : Tokens) : List Mention :=
  match borrowed? inner with
  | some (name, description) => [(name, some description)]
  | none => mentionsIn inner

@[simp] theorem mentionsIn_append (tokens others : Tokens) :
    mentionsIn (tokens ++ others) = mentionsIn tokens ++ mentionsIn others := by
  induction tokens with
  | nil => rfl
  | cons token tokens ih =>
    rw [List.cons_append, mentionsIn, mentionsIn, ih, List.append_assoc]

theorem mentionsIn_flatMap {α : Type} (tokens : α → Tokens) (values : List α) :
    mentionsIn (values.flatMap tokens) = values.flatMap fun value => mentionsIn (tokens value) := by
  induction values with
  | nil => rfl
  | cons value values ih => rw [List.flatMap_cons, List.flatMap_cons, mentionsIn_append, ih]

theorem mentionsIn_operator (symbols : List Char) : mentionsIn (operator symbols) = [] := by
  induction symbols with
  | nil => rfl
  | cons symbol symbols ih =>
    cases symbols with
    | nil => rfl
    | cons next symbols => exact ih

theorem isRegexName_of_not_mem {word : String} (h : 'X' ∉ word.toList) :
    isRegexName word = false := by
  rw [isRegexName, Bool.and_eq_false_iff]
  refine .inl (Bool.eq_false_iff.2 fun hbegins => ?_)
  exact h ((List.isPrefixOf_iff_prefix.1 hbegins).subset (by decide))

theorem isRegexName_regexName (number : Nat) : isRegexName (regexName number) = true := by
  have hdigits : (toString number).toList = Nat.toDigits 10 number := Nat.toList_repr
  rw [isRegexName, regexName, String.toList_append, hdigits, Bool.and_eq_true,
    List.isPrefixOf_iff_prefix]
  refine ⟨List.prefix_append _ _, List.all_eq_true.2 fun c hc => ?_⟩
  exact Token.covers_toDigits number c hc

/-- The functions of alternatives are called otherwise. -/
theorem isRegexName_alternative (function : Identifier) (number : Nat) :
    isRegexName (function.alternative number).print = false := by
  have hmem : 't' ∈ (function.alternative number).print.toList := by
    show 't' ∈ (function.word ++ "_alt" ++ toString number).toList
    simp
  rw [Bool.eq_false_iff]
  intro hname
  rw [isRegexName, Bool.and_eq_true] at hname
  obtain ⟨hbegins, hdigits⟩ := hname
  -- the letter is neither in the beginning nor a digit
  obtain ⟨rest, hrest⟩ := List.isPrefixOf_iff_prefix.1 hbegins
  rw [← hrest] at hmem hdigits
  rcases List.mem_append.1 hmem with hmem | hmem
  · exact absurd hmem (by decide)
  · exact absurd (List.all_eq_true.1 hdigits 't' hmem) (by decide)

theorem mentionsIn_piece {cs : List Char} (h : 'X' ∉ cs) : mentionsIn (piece cs) = [] := by
  cases cs with
  | nil => rfl
  | cons c cs =>
    rw [piece]
    split
    · have hname : isRegexName (String.ofList (c :: cs)) = false :=
        isRegexName_of_not_mem (by rwa [String.toList_ofList])
      rw [mentionsIn, mentionsInside, hname]
      rfl
    · split
      · rfl
      · exact mentionsIn_operator _

/-- Constant code has no letter that is needed for a mention. -/
@[simp] theorem mentionsIn_code {text : String} (h : 'X' ∉ text.toList) :
    mentionsIn (code text) = [] := by
  rw [code, mentionsIn_flatMap, List.flatMap_eq_nil_iff]
  exact fun cs hcs => mentionsIn_piece fun hmem =>
    h ((Text.infix_of_mem_splitOn hcs).subset hmem)

@[simp] theorem mentionsIn_text (string : String) : mentionsIn (text string) = [] := rfl

theorem mentionsIn_word {word : String} (h : isRegexName word = false) (tokens : Tokens) :
    mentionsIn (.word word :: tokens) = mentionsIn tokens := by
  rw [mentionsIn, mentionsInside, h]
  rfl

theorem mentionsBetween_eq {inner : Tokens} (h : borrowed? inner = none) :
    mentionsBetween inner = mentionsIn inner := by
  rw [mentionsBetween, h]

theorem mentionsBetween_of_mentionsIn {inner : Tokens} (h : mentionsIn inner = []) :
    mentionsBetween inner = [] := by
  rcases hborrowed : borrowed? inner with - | ⟨name, description⟩
  · rw [mentionsBetween_eq hborrowed, h]
  · -- what is borrowed is a word of the call
    unfold borrowed? at hborrowed
    split at hborrowed
    · rw [Option.ite_none_right_eq_some] at hborrowed
      simp [mentionsIn, mentionsInside, hborrowed.1] at h
    · cases hborrowed

/-- There are tokens, and they do not begin with a borrow. -/
def beginsPlain (tokens : Tokens) : Bool :=
  match tokens.head? with
  | none | some (.mark '&' _) => false
  | some _ => true

theorem mentionsBetween_append {tokens : Tokens} (h : beginsPlain tokens = true) (rest : Tokens) :
    mentionsBetween (tokens ++ rest) = mentionsIn (tokens ++ rest) := by
  refine mentionsBetween_eq ?_
  cases tokens with
  | nil => cases h
  | cons token tokens =>
    unfold borrowed?
    split
    · rename_i hcall
      rw [(List.cons.inj hcall).1] at h
      cases h
    · rfl

@[simp] theorem mentionsBetween_code_append {text : String} (h : beginsPlain (code text) = true)
    (rest : Tokens) : mentionsBetween (code text ++ rest) = mentionsIn (code text ++ rest) :=
  mentionsBetween_append h rest

@[simp] theorem mentionsBetween_code {text : String} (h : beginsPlain (code text) = true) :
    mentionsBetween (code text) = mentionsIn (code text) := by
  have hcode := mentionsBetween_append h []
  rwa [List.append_nil] at hcode

/-! ### Pieces of code -/

section

variable (inner tokens body call function arguments type statements result : Tokens)

@[simp] theorem mentionsIn_parentheses : mentionsIn (parentheses inner) = mentionsBetween inner :=
  List.append_nil _

@[simp] theorem mentionsIn_brackets : mentionsIn (brackets inner) = mentionsBetween inner :=
  List.append_nil _

@[simp] theorem mentionsIn_braces : mentionsIn (braces inner) = mentionsBetween inner :=
  List.append_nil _

@[simp] theorem mentionsBetween_nil : mentionsBetween [] = [] := rfl

@[simp] theorem mentionsBetween_word (word : String) :
    mentionsBetween (.word word :: tokens) = mentionsIn (.word word :: tokens) :=
  mentionsBetween_eq rfl

@[simp] theorem mentionsBetween_text (string : String) :
    mentionsBetween (text string ++ tokens) = mentionsIn tokens :=
  mentionsBetween_eq rfl

@[simp] theorem mentionsIn_closure : mentionsIn (closure body) = mentionsIn body := by
  simp (disch := decide) [closure, matchParameters]

@[simp] theorem mentionsIn_matcher : mentionsIn (matcher body) = mentionsIn body := by
  simp (disch := decide) [matcher, closure, matchParameters]

@[simp] theorem mentionsIn_owned : mentionsIn (owned call) = mentionsIn call := by
  simp (disch := decide) [owned]

@[simp] theorem mentionsIn_matchCall : mentionsIn (matchCall function arguments) =
    mentionsIn function ++ mentionsBetween (arguments ++ code ", input , start") := by
  rw [matchCall, mentionsIn_append, mentionsIn_parentheses]

@[simp] theorem mentionsIn_outcomeType : mentionsIn (outcomeType type) = mentionsIn type := by
  simp (disch := decide) [outcomeType]

/-- What comes before an offset is not borrowed for a match. -/
@[simp] theorem mentionsBetween_end :
    mentionsBetween (result ++ code ", end") = mentionsIn result := by
  have hcode : result ++ code ", end" = (result ++ [.mark ',' false]) ++ [.word "end"] := by
    rw [List.append_assoc]
    rfl
  -- a call that borrows a constant goes on at the start
  have hborrowed : borrowed? (result ++ code ", end") = none := by
    rw [hcode]
    unfold borrowed?
    split
    · rename_i h
      have hlast := congrArg List.getLast? h
      rw [List.getLast?_concat] at hlast
      simp at hlast
    · rfl
  rw [mentionsBetween_eq hborrowed]
  simp (disch := decide)

@[simp] theorem mentionsIn_sequenceBody :
    mentionsIn (sequenceBody statements result) = mentionsIn statements ++ mentionsIn result := by
  simp (disch := decide) [sequenceBody]

end

/-! ### Variables -/

theorem isRegexName_append {word : String} {c : Char} (hword : word.toList.head? = some c)
    (hc : c ≠ 'R') (rest : String) : isRegexName (word ++ rest) = false := by
  obtain ⟨cs, hcs⟩ := List.head?_eq_some_iff.1 hword
  rw [isRegexName, String.toList_append, hcs]
  show (('R' == c && _) && _) = false
  rw [beq_eq_false_iff_ne.2 hc.symm, Bool.false_and, Bool.false_and]

/-- Variables are not called like the constants. -/
theorem isRegexName_nameWith (place : Place) {outside inside : String} {c d : Char}
    (houtside : outside.toList.head? = some c) (hc : c ≠ 'R')
    (hinside : inside.toList.head? = some d) (hd : d ≠ 'R') :
    isRegexName (place.nameWith outside inside) = false := by
  rw [Place.nameWith]
  split
  · exact isRegexName_append houtside hc _
  · rw [String.append_assoc, String.append_assoc]
    exact isRegexName_append hinside hd _

theorem isRegexName_value (place : Place) : isRegexName place.value = false :=
  isRegexName_nameWith place rfl (by decide) rfl (by decide)

theorem isRegexName_start (place : Place) : isRegexName place.start = false :=
  isRegexName_nameWith place rfl (by decide) rfl (by decide)

theorem isRegexName_stop (place : Place) : isRegexName place.stop = false :=
  isRegexName_nameWith place rfl (by decide) rfl (by decide)

section

variable (place : Place) (tokens : Tokens)

@[simp] theorem mentionsIn_value : mentionsIn (.word place.value :: tokens) = mentionsIn tokens :=
  mentionsIn_word (isRegexName_value place) tokens

@[simp] theorem mentionsIn_start : mentionsIn (.word place.start :: tokens) = mentionsIn tokens :=
  mentionsIn_word (isRegexName_start place) tokens

@[simp] theorem mentionsIn_stop : mentionsIn (.word place.stop :: tokens) = mentionsIn tokens :=
  mentionsIn_word (isRegexName_stop place) tokens

end

/-- The code of a matcher is not borrowed where it is an argument. -/
theorem beginsPlain_tokens (matcher : MatcherCode) : beginsPlain matcher.tokens = true := by
  cases matcher <;> rfl

@[simp] theorem mentionsBetween_tokens_append (matcher : MatcherCode) (rest : Tokens) :
    mentionsBetween (matcher.tokens ++ rest) = mentionsIn (matcher.tokens ++ rest) :=
  mentionsBetween_append (beginsPlain_tokens matcher) rest

@[simp] theorem mentionsBetween_tokens (matcher : MatcherCode) :
    mentionsBetween matcher.tokens = mentionsIn matcher.tokens := by
  have htokens := mentionsBetween_append (beginsPlain_tokens matcher) []
  rwa [List.append_nil] at htokens

theorem mentionsIn_itemStatements (place : Place) (matcher : MatcherCode) :
    mentionsIn (itemStatements place matcher.tokens) = mentionsIn matcher.tokens := by
  have hend : ∀ tokens, mentionsIn (.word "end" :: tokens) = mentionsIn tokens :=
    mentionsIn_word (by decide)
  simp (disch := decide) [itemStatements, hend]

@[simp] theorem mentionsIn_repetition (mode : Repetition) (matcher : MatcherCode) :
    mentionsIn (repetition mode matcher.tokens) = mentionsIn matcher.tokens := by
  cases mode <;> simp (disch := decide) [repetition]

/-! ### Tuples -/

/-- Values that do not begin with a borrow, with commas between them. -/
theorem beginsPlain_commaSeparated {first : Tokens} (h : beginsPlain first = true)
    (others : List Tokens) : beginsPlain (commaSeparated (first :: others)) = true := by
  cases others with
  | nil => exact h
  | cons second others =>
    cases first with
    | nil => cases h
    | cons token tokens => exact h

theorem mentionsIn_commaSeparated {values : List Tokens}
    (h : ∀ tokens ∈ values, mentionsIn tokens = []) : mentionsIn (commaSeparated values) = [] := by
  induction values with
  | nil => rfl
  | cons first others ih =>
    obtain ⟨hfirst, hothers⟩ := List.forall_mem_cons.1 h
    cases others with
    | nil => exact hfirst
    | cons second others =>
      have hcomma : mentionsIn (code ",") = [] := mentionsIn_code (by decide)
      show mentionsIn (first ++ code "," ++ commaSeparated (second :: others)) = []
      rw [mentionsIn_append, mentionsIn_append, hfirst, hcomma, ih hothers]
      rfl

/-- Values in brackets. -/
theorem mentionsBetween_commaSeparated {values : List Tokens}
    (h : ∀ tokens ∈ values, beginsPlain tokens = true ∧ mentionsIn tokens = []) :
    mentionsBetween (commaSeparated values) = [] := by
  cases values with
  | nil => rfl
  | cons first others =>
    have hplain := beginsPlain_commaSeparated (h first (List.mem_cons_self ..)).1 others
    have hbetween := mentionsBetween_append hplain []
    rw [List.append_nil] at hbetween
    rw [hbetween, mentionsIn_commaSeparated fun tokens htokens => (h tokens htokens).2]

/-- A tuple of variables. -/
theorem mentionsIn_tuple (placeOf : Nat → Place) (indexes : List Nat) :
    mentionsIn (tuple (indexes.map fun index => [.word (placeOf index).value])) = [] := by
  have hvalues : ∀ tokens ∈ indexes.map fun index => [TokenTree.word (placeOf index).value],
      beginsPlain tokens = true ∧ mentionsIn tokens = [] :=
    List.forall_mem_map.2 fun index _ => ⟨rfl, mentionsIn_value _ []⟩
  match indexes with
  | [] => rfl
  | [index] => exact mentionsIn_value _ []
  | first :: second :: others =>
    exact (mentionsIn_parentheses _).trans (mentionsBetween_commaSeparated hvalues)

/-- A general value made of variables. -/
theorem mentionsIn_tupleValue (placeOf : Nat → Place) (indexes : List Nat) :
    mentionsIn (tupleValue (indexes.map fun index => [.word (placeOf index).value])) = [] := by
  have hvalues : ∀ tokens ∈ (indexes.map fun index => [TokenTree.word (placeOf index).value]).map
      fun value => value ++ code ". into" ++ parentheses [],
      beginsPlain tokens = true ∧ mentionsIn tokens = [] :=
    List.forall_mem_map.2 <| List.forall_mem_map.2 fun index _ =>
      ⟨rfl, by simp (disch := decide)⟩
  have hvector : mentionsIn (code "vec !") = [] := mentionsIn_code (by decide)
  have htuple : mentionsIn (code "rt :: Value :: tuple") = [] := mentionsIn_code (by decide)
  rw [tupleValue, mentionsIn_append, htuple, mentionsIn_parentheses,
    mentionsBetween_code_append (by decide), mentionsIn_append, hvector, mentionsIn_brackets,
    mentionsBetween_commaSeparated hvalues]
  rfl

/-! ### Matchers -/

mutual

/-- The functions that the code of a matcher calls, but those of the runtime. -/
def MatcherCode.functions : MatcherCode → List Identifier
  | .rule function | .template function _ => [function]
  | .external function inner => function :: inner.functions
  | .negative inner | .look inner | .attempt inner | .backtrack inner | .repeated _ inner =>
    inner.functions
  | .group _ items _ => functionsOfAll items
  | .literal _ | .regex _ _ | .any | .param | .variable _ => []

/-- The functions that the code of several matchers calls. -/
def functionsOfAll : List MatcherCode → List Identifier
  | [] => []
  | item :: items => item.functions ++ functionsOfAll items

end

/-- The mentions with a description. -/
def described (mentions : List Mention) : List (String × String) :=
  mentions.filterMap fun mention => mention.2.map fun description => (mention.1, description)

theorem eq_map_described {mentions : List Mention} (h : ∀ mention ∈ mentions, mention.2.isSome) :
    mentions = (described mentions).map fun use => (use.1, some use.2) := by
  induction mentions with
  | nil => rfl
  | cons mention mentions ih =>
    obtain ⟨hmention, hmentions⟩ := List.forall_mem_cons.1 h
    obtain ⟨name, - | description⟩ := mention
    · cases hmention
    · exact congrArg ((name, some description) :: ·) (ih hmentions)

/-- What the code for a regular expression borrows. -/
def useOf (placed : Path × Nat × String) : String × String :=
  (regexName placed.2.1, quote placed.2.2)

/-- Tokens borrow the constants of some regular expressions, with their descriptions and in order.
They mention nothing else unless a function is called like a constant. -/
structure Mentions (tokens : Tokens) (functions : List Identifier)
    (placed : List (Path × Nat × String)) : Prop where
  borrowed : described (mentionsIn tokens) = placed.map useOf
  only : (∀ function ∈ functions, isRegexName function.print = false) →
    ∀ mention ∈ mentionsIn tokens, mention.2.isSome

namespace Mentions

variable {tokens others : Tokens} {functions functions' : List Identifier}
variable {placed placed' : List (Path × Nat × String)}

theorem none (h : mentionsIn tokens = []) : Mentions tokens functions [] := by
  constructor
  · rw [h]
    rfl
  · rw [h]
    exact fun _ => List.forall_mem_nil _

theorem congr (hothers : Mentions others functions placed)
    (h : mentionsIn tokens = mentionsIn others) : Mentions tokens functions placed := by
  constructor
  · rw [h, hothers.borrowed]
  · rw [h]
    exact hothers.only

theorem append (h : Mentions tokens functions placed) (h' : Mentions others functions' placed') :
    Mentions (tokens ++ others) (functions ++ functions') (placed ++ placed') := by
  constructor
  · rw [mentionsIn_append, described, List.filterMap_append, List.map_append, ← h.borrowed,
      ← h'.borrowed]
    rfl
  · intro hfunctions
    obtain ⟨hfirst, hothers⟩ := List.forall_mem_append.1 hfunctions
    rw [mentionsIn_append]
    exact List.forall_mem_append.2 ⟨h.only hfirst, h'.only hothers⟩

/-- A function may be called like a constant, but it is not borrowed. -/
theorem call (function : Identifier) : Mentions (name function) [function] [] := by
  have hname : mentionsIn (name function) =
      if isRegexName function.print then [(function.print, .none)] else [] :=
    List.append_nil _
  constructor
  · rw [hname]
    split <;> rfl
  · intro hfunctions
    rw [hname, hfunctions function (List.mem_singleton_self function)]
    exact List.forall_mem_nil _

end Mentions

mutual

/-- The code of a matcher borrows the constants of its regular expressions. -/
theorem mentions_tokens : ∀ (matcher : MatcherCode) (path : Path),
    Mentions matcher.tokens matcher.functions (matcher.placedRegexes path)
  | .literal _, _ | .param, _ | .any, _ =>
    .none (by simp (disch := decide) [MatcherCode.tokens])
  | .variable place, _ => by
    -- the call borrows the text of a capture, and has no description
    have hcall : mentionsBetween (code "& text" ++ code ", input , start") =
        mentionsIn (code "& text" ++ code ", input , start") := mentionsBetween_eq rfl
    exact .none (by simp (disch := decide) [MatcherCode.tokens, hcall])
  | .regex number description, path => by
    -- the one call that borrows a constant
    have hborrowed : borrowed? (code "&" ++ .word (regexName number) ::
        (code "," ++ (text description ++ code ", input , start"))) =
        some (regexName number, quote description) :=
      if_pos (isRegexName_regexName number)
    have htokens : mentionsIn (MatcherCode.regex number description).tokens =
        [(regexName number, some (quote description))] := by
      rw [MatcherCode.tokens, ← regexName]
      simp (disch := decide) [mentionsBetween, hborrowed]
    constructor
    · rw [htokens]
      rfl
    · rw [htokens]
      exact fun _ => List.forall_mem_singleton.2 rfl
  | .rule function, _ | .template function _, _ =>
    (Mentions.call function).congr (by simp (disch := decide) [MatcherCode.tokens])
  | .negative inner, path | .look inner, path | .attempt inner, path | .backtrack inner, path
  | .repeated _ inner, path =>
    (mentions_tokens inner path).congr (by simp (disch := decide) [MatcherCode.tokens])
  | .external function inner, path => by
    refine ((Mentions.call function).append (mentions_tokens inner path)).congr ?_
    -- what is borrowed is not a word but has brackets around it
    have hcall : ∀ tokens, mentionsBetween (code "&" ++ (parentheses inner.tokens ++ tokens)) =
        mentionsIn (code "&" ++ (parentheses inner.tokens ++ tokens)) :=
      fun _ => mentionsBetween_eq rfl
    simp (disch := decide) [MatcherCode.tokens, hcall]
  | .group depth items kept, path => by
    refine (mentions_statements items depth path 0).congr ?_
    have hvalues := mentionsIn_tuple (Place.mk depth) kept
    simp (disch := decide) [MatcherCode.tokens, matchParameters, hvalues]

theorem mentions_statements : ∀ (items : List MatcherCode) (depth : Nat) (path : Path)
    (index : Nat), Mentions (statements depth index items) (functionsOfAll items)
      (placedCodes path index items)
  | [], _, _, _ => .none rfl
  | item :: items, depth, path, index => by
    rw [statements]
    exact ((mentions_tokens item (path ++ [index])).congr (mentionsIn_itemStatements _ item)).append
      (mentions_statements items depth path (index + 1))

end

/-! ### Modules -/

/-- The result of an alternative mentions only what its mapper does. -/
theorem mentionsIn_resultTokens {alternative : AlternativeCode} (isUntyped : Bool)
    (h : ∀ expression ∈ alternative.result, mentionsIn expression = []) :
    mentionsIn (alternative.resultTokens isUntyped) = [] := by
  unfold AlternativeCode.resultTokens
  rcases hresult : alternative.result with - | expression
  · cases isUntyped with
    | true => exact mentionsIn_tupleValue (Place.mk 0) _
    | false => exact mentionsIn_tuple (Place.mk 0) _
  · have hexpression := h expression hresult
    cases isUntyped with
    | true => simp (disch := decide) [mentionsBetween_of_mentionsIn hexpression]
    | false => exact hexpression

theorem mentionsIn_alternative (rule : RuleCode) (alternative : AlternativeCode) :
    mentionsIn (alternative.tokens rule) = mentionsIn (name alternative.function) ++
      (mentionsIn rule.type ++ (mentionsIn (statements 0 0 alternative.items) ++
        mentionsIn (alternative.resultTokens rule.isUntyped))) := by
  have hparameters : mentionsBetween (templateParameter rule.isTemplate ++ matchParameters) =
      [] := by
    cases rule.isTemplate <;> simp (disch := decide) [templateParameter, matchParameters]
  simp (disch := decide) [AlternativeCode.tokens, hparameters]

theorem mentionsIn_declaration (regex : RegexCode) (number : Nat) :
    mentionsIn (regex.tokens number) = [(regexName number, none)] := by
  have hname : ∀ tokens, mentionsIn (.word (regexName number) :: tokens) =
      (regexName number, none) :: mentionsIn tokens := by
    intro tokens
    rw [mentionsIn, mentionsInside, if_pos (isRegexName_regexName number)]
    rfl
  rw [RegexCode.tokens, ← regexName]
  simp (disch := decide) [hname]

theorem mentionsIn_moduleTokens (header content : Tokens) :
    mentionsIn (moduleTokens header content) = mentionsIn header ++ mentionsIn content := by
  simp (disch := decide) [moduleTokens, allow, annotation]

/-! ### Tables -/

/-- The code of the alternatives that matches: all of it but the signatures and the results. -/
def ParserCode.statementTokens (parser : ParserCode) : Tokens :=
  parser.rules.flatMap fun rule =>
    rule.alternatives.flatMap fun alternative => statements 0 0 alternative.items

/-- The module of the alternatives, with the declarations of the regular expressions. -/
def ParserCode.alternativesModule (parser : ParserCode) : Tokens :=
  moduleTokens (code "mod alternatives") (parser.regexTokens ++ parser.alternativeTokens)

/-- Neither the host code of a parser, that of types and mappers, has words like the names of the
constants in it, nor is a function that the parser calls called so. -/
def ParserCode.ConstantsApart (parser : ParserCode) : Prop :=
  ∀ rule ∈ parser.rules, mentionsIn rule.type = [] ∧
    ∀ alternative ∈ rule.alternatives,
      (∀ function ∈ functionsOfAll alternative.items, isRegexName function.print = false) ∧
      ∀ expression ∈ alternative.result, mentionsIn expression = []

instance (parser : ParserCode) : Decidable parser.ConstantsApart :=
  inferInstanceAs (Decidable (∀ rule ∈ parser.rules, mentionsIn rule.type = [] ∧
    ∀ alternative ∈ rule.alternatives,
      (∀ function ∈ functionsOfAll alternative.items, isRegexName function.print = false) ∧
      ∀ expression ∈ alternative.result, mentionsIn expression = []))

/-- A list with the names of the constants in order. -/
def table {α β : Type} (entry : α → β) (values : List α) : List (String × β) :=
  values.zipIdx.map fun (value, number) => (regexName number, entry value)

theorem regexName_injective : Function.Injective regexName := by
  intro first second h
  have hdigits : first.repr = second.repr := (String.append_right_inj "RX_").1 h
  have hvalue := congrArg (fun digits => Text.numberOf? 10 digits.toList) hdigits
  simp only [Nat.toList_repr, Token.numberOf?_toDigits] at hvalue
  exact Option.some.inj hvalue

/-- Each constant is in the table once. -/
theorem nodup_table {α β : Type} (entry : α → β) (values : List α) :
    ((table entry values).map (·.1)).Nodup := by
  have hnames : (table entry values).map (·.1) =
      (List.range' 0 values.length).map regexName := by
    rw [table, List.map_map, ← List.zipIdx_map_snd, List.map_map]
    rfl
  rw [hnames]
  exact List.Nodup.map regexName_injective List.nodup_range'

theorem declaredIn_zipIdx (regexes : List RegexCode) : ∀ first,
    declaredIn ((regexes.zipIdx first).flatMap fun (regex, number) => regex.tokens number) =
      (regexes.zipIdx first).map fun (regex, number) => (regexName number, regex.arguments) := by
  induction regexes with
  | nil => exact fun _ => rfl
  | cons regex regexes ih =>
    intro first
    rw [List.zipIdx_cons, List.flatMap_cons, List.map_cons, ← ih (first + 1)]
    exact declaredIn_append regex first _

theorem isRegexName_alternativeFunctions {grammar : Grammar} {options : CompileOptions}
    {parser : ParserCode} (h : ParserCode.ofGrammar grammar options = .ok parser) :
    ∀ function ∈ parser.alternativeFunctions, isRegexName function.print = false := by
  obtain ⟨-, types, rules, -, hrules, rfl⟩ := ParserCode.exists_of_ofGrammar h
  intro function hfunction
  rw [ParserCode.alternativeFunctions, (rulesCode_functions hrules).2,
    List.mem_flatMap] at hfunction
  obtain ⟨rule, -, hfunction⟩ := hfunction
  obtain ⟨number, -, rfl⟩ := List.mem_map.1 hfunction
  exact isRegexName_alternative _ number

theorem mentionsIn_regexTokens (parser : ParserCode) :
    mentionsIn parser.regexTokens = table (fun _ => none) parser.regexes := by
  have hplain : ∀ declarations : List (RegexCode × Nat),
      mentionsBetween (declarations.flatMap fun (regex, number) => regex.tokens number) =
        mentionsIn (declarations.flatMap fun (regex, number) => regex.tokens number) := by
    rintro (- | ⟨⟨regex, number⟩, others⟩)
    · rfl
    · have hdeclaration : beginsPlain (regex.tokens number) = true := rfl
      exact mentionsBetween_append hdeclaration _
  rw [ParserCode.regexTokens, mentionsIn_append, mentionsIn_code (by decide), mentionsIn_braces,
    hplain, mentionsIn_flatMap, table, List.map_eq_flatMap]
  exact List.flatMap_congr fun declaration _ =>
    mentionsIn_declaration declaration.1 declaration.2

theorem described_flatMap {α : Type} (tokens : α → Tokens) (values : List α) :
    described (mentionsIn (values.flatMap tokens)) =
      values.flatMap fun value => described (mentionsIn (tokens value)) := by
  rw [mentionsIn_flatMap, described, List.filterMap_flatMap]
  rfl

/-- The code that matches borrows the constants, whatever functions are called. -/
theorem described_statementTokens (parser : ParserCode) :
    described (mentionsIn parser.statementTokens) = parser.placedRegexes.map useOf := by
  have halternative : ∀ (alternative : AlternativeCode) (path : Path),
      described (mentionsIn (statements 0 0 alternative.items)) =
        (alternative.placedRegexes path).map useOf :=
    fun alternative path => (mentions_statements alternative.items 0 path 0).borrowed
  have hrule : ∀ (rule : RuleCode) (path : Path),
      described (mentionsIn (rule.alternatives.flatMap fun alternative =>
        statements 0 0 alternative.items)) = (rule.placedRegexes path).map useOf := by
    intro rule path
    rw [described_flatMap]
    exact flatMap_eq_map_placedAll halternative path rule.alternatives 0
  rw [ParserCode.statementTokens, described_flatMap]
  exact flatMap_eq_map_placedAll hrule [] parser.rules 0

/-- With the constants apart, the code that matches borrows whatever it mentions. -/
theorem mentionsIn_statementTokens {parser : ParserCode} (h : parser.ConstantsApart) :
    mentionsIn parser.statementTokens = (described (mentionsIn parser.statementTokens)).map
      fun use => (use.1, some use.2) := by
  have hall : ∀ mention ∈ mentionsIn parser.statementTokens, mention.2.isSome := by
    intro mention hmention
    rw [ParserCode.statementTokens, mentionsIn_flatMap, List.mem_flatMap] at hmention
    obtain ⟨rule, hrule, hmention⟩ := hmention
    rw [mentionsIn_flatMap, List.mem_flatMap] at hmention
    obtain ⟨alternative, halternative, hmention⟩ := hmention
    obtain ⟨hfunctions, -⟩ := (h rule hrule).2 alternative halternative
    exact (mentions_statements alternative.items 0 [] 0).only hfunctions mention hmention
  exact eq_map_described hall

/-- The rest of the module then has the declarations alone. -/
theorem mentionsIn_alternativesModule {parser : ParserCode} (h : parser.ConstantsApart)
    (hnames : ∀ function ∈ parser.alternativeFunctions, isRegexName function.print = false) :
    mentionsIn parser.alternativesModule =
      table (fun _ => none) parser.regexes ++ mentionsIn parser.statementTokens := by
  rw [ParserCode.alternativesModule, mentionsIn_moduleTokens, mentionsIn_code (by decide),
    mentionsIn_append, mentionsIn_regexTokens, List.nil_append, List.append_cancel_left_eq,
    ParserCode.alternativeTokens, ParserCode.statementTokens, mentionsIn_flatMap,
    mentionsIn_flatMap]
  refine List.flatMap_congr fun rule hrule => ?_
  obtain ⟨htype, halternatives⟩ := h rule hrule
  rw [mentionsIn_flatMap, mentionsIn_flatMap]
  refine List.flatMap_congr fun alternative halternative => ?_
  have hname : mentionsIn (name alternative.function) = [] :=
    mentionsIn_word (hnames _ (List.mem_flatMap.2
      ⟨rule, hrule, List.mem_map_of_mem halternative⟩)) []
  obtain ⟨-, hresult⟩ := halternatives alternative halternative
  rw [mentionsIn_alternative, hname, htype, mentionsIn_resultTokens rule.isUntyped hresult,
    List.nil_append, List.nil_append, List.append_nil]

/-- A generated parser ends with the module of the alternatives, and this declares a constant for
each regular expression of the grammar, from left to right and once, with the source and the flags
of the regular expression.  The code that matches has these at the places where they are in the
grammar; it borrows each constant once, in this order and with the description of the regular
expression.  The names are nowhere else in the module, unless host code has such a name in it or a
function that is called has one: the mapper of `Peg.Reused.grammar` is a counterexample to this part
without `ConstantsApart`.  In the program of the interpreter the regular expressions are at the same
places, with the same descriptions. -/
theorem regexes_match_uses {grammar : Grammar} {options : CompileOptions} {parser : ParserCode}
    (h : ParserCode.ofGrammar grammar options = .ok parser) :
    (∃ others declarations, parser.tokens = others ++ parser.alternativesModule ∧
      parser.regexTokens = code ":: pegc :: lazy_static :: lazy_static !" ++ braces declarations ∧
      declaredIn declarations = table (fun placed => placed.2.arguments) grammar.placedRegexes ∧
      ((declaredIn declarations).map (·.1)).Nodup) ∧
    parser.placedRegexes = numbered 0 grammar.placedRegexes ∧
    described (mentionsIn parser.statementTokens) =
      table (fun placed => quote placed.2.description) grammar.placedRegexes ∧
    ((described (mentionsIn parser.statementTokens)).map (·.1)).Nodup ∧
    (parser.ConstantsApart → mentionsIn parser.alternativesModule =
      table (fun _ => none) grammar.placedRegexes ++
        table (fun placed => some (quote placed.2.description)) grammar.placedRegexes) ∧
    ∀ options' program, grammar.compile options' = .ok program →
      List.Forall₂ (IsCompiled options'.dialect) program.placedRegexes grammar.placedRegexes := by
  obtain ⟨hregexes, hplaced⟩ := ofGrammar_placedRegexes h
  -- both tables number the same list of regular expressions, in the order of the grammar
  have hdeclared : declaredIn (parser.regexes.zipIdx.flatMap
      fun (regex, number) => regex.tokens number) =
      table (fun placed => placed.2.arguments) grammar.placedRegexes := by
    rw [declaredIn_zipIdx, hregexes, List.zipIdx_map, List.map_map]
    rfl
  have hborrowed : described (mentionsIn parser.statementTokens) =
      table (fun placed => quote placed.2.description) grammar.placedRegexes := by
    rw [described_statementTokens, hplaced, numbered, List.map_map]
    rfl
  refine ⟨⟨_, _, rfl, rfl, hdeclared, ?_⟩, hplaced, hborrowed, ?_, fun hapart => ?_,
    fun options' program => compile_placedRegexes⟩
  · rw [hdeclared]
    exact nodup_table _ _
  · rw [hborrowed]
    exact nodup_table _ _
  · have hmodule := mentionsIn_alternativesModule hapart (isRegexName_alternativeFunctions h)
    rw [hmodule, mentionsIn_statementTokens hapart, hborrowed, hregexes, table, table, table, table,
      List.zipIdx_map, List.map_map, List.map_map]
    rfl

end Peg.Generated

namespace Peg.Numbered

open Generated

/-- A grammar with a template that takes no regular expression, and four of them elsewhere:

    t`x` = x ;
    a = (!/b/ not(/c/i))+ t('d') | look(try(/e/)) /f/? ;
-/
def grammar : Grammar :=
  { rules := [
      ⟨.template (some "t") "x", none, [⟨[⟨.name "x" {}, none, {}⟩], none, {}⟩], {}⟩,
      ⟨.simple "a", none, [
        ⟨[⟨.group [.mk true (.regex "b" "" {}) none {},
            .mk false (.apply "not" (.regex "c" "i" {}) {}) none {}] {}, some .oneOrMore, {}⟩,
          ⟨.apply "t" (.literal "d" {}) {}, none, {}⟩], none, {}⟩,
        ⟨[⟨.apply "look" (.apply "try" (.regex "e" "" {}) {}) {}, none, {}⟩,
          ⟨.regex "f" "" {}, some .optional, {}⟩], none, {}⟩], {}⟩] }

/-- The places of the regular expressions in the code, and the words for constants in it: four
declarations, and four calls. -/
theorem regexes_in_order : ∃ parser, ParserCode.ofGrammar grammar .forCodegen = .ok parser ∧
    parser.placedRegexes = [([1, 0, 0, 0], 0, "/b/"), ([1, 0, 0, 1], 1, "/c/i"),
      ([1, 1, 0], 2, "/e/"), ([1, 1, 1], 3, "/f/")] ∧
    mentionsIn parser.alternativesModule =
      [("RX_0", none), ("RX_1", none), ("RX_2", none), ("RX_3", none),
        ("RX_0", some "\"/b/\""), ("RX_1", some "\"/c/i\""), ("RX_2", some "\"/e/\""),
        ("RX_3", some "\"/f/\"")] := by
  obtain ⟨parser, hparser, hapart⟩ : ∃ parser,
      ParserCode.ofGrammar grammar .forCodegen = .ok parser ∧ parser.ConstantsApart :=
    ⟨_, rfl, by decide⟩
  obtain ⟨-, hplaced, -, -, hmodule, -⟩ := regexes_match_uses hparser
  refine ⟨parser, hparser, hplaced, ?_⟩
  rw [hmodule hapart]
  decide +kernel

end Peg.Numbered

namespace Peg.Reused

open Generated Host

/-- A mapper that is written in terms of the generated code:

    a = /x/ %% RX_0.as_str().to_owned()
    ;
-/
def grammar : Grammar :=
  { rules := [⟨.simple "a", none, [⟨[⟨.regex "x" "" {}, none, {}⟩],
      some ⟨"RX_0.as_str().to_owned()", {}⟩, {}⟩], {}⟩] }

/-- Mappers are put into the code as they are, whatever words are in them.  So the constant for the
only regular expression is mentioned once more than it is declared and borrowed. -/
theorem constant_named_by_mapper : ∃ parser,
    ParserCode.ofGrammar grammar .forCodegen = .ok parser ∧
    mentionsIn parser.alternativesModule =
      [("RX_0", none), ("RX_0", some "\"/x/\""), ("RX_0", none)] ∧
    mentionsIn parser.alternativesModule ≠
      table (fun _ => none) grammar.placedRegexes ++
        table (fun placed => some (quote placed.2.description)) grammar.placedRegexes := by
  have hmodule : (ParserCode.ofGrammar grammar .forCodegen).toOption.any (fun parser =>
      mentionsIn parser.alternativesModule ==
        [("RX_0", none), ("RX_0", some "\"/x/\""), ("RX_0", none)]) = true := by decide +kernel
  obtain ⟨parser, hparser, hmentions⟩ := (Option.any_eq_true _ _).1 hmodule
  have hmentions := eq_of_beq hmentions
  refine ⟨parser, eq_ok_of_toOption hparser, hmentions, ?_⟩
  -- the table of declarations and uses has two entries
  rw [hmentions]
  exact fun h => absurd (congrArg List.length h) (by decide)

end Peg.Reused
