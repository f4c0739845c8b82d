/-
Peg/Proofs/Generated/RegexPlaces.lean

Where the regular expressions of a grammar are.

The path of a regular expression is the way to it: the numbers of its rule, of
the alternative and of the item, and then those of the members of groups that
it is inside of.  Functions that are applied and repetitions have one pattern
each and are not counted.

The code of a parser and the program for a grammar have regular expressions at
the same paths as the grammar, from left to right.  In the code they are
numbered in this order (`rulesCode_placedRegexes`), although the numbers are
passed on by lengths, from each pattern to those after it; in the program they
are compiled (`compile_placedRegexes`).
-/
import Peg.Proofs.Generated.OfGrammar
import Peg.Proofs.Program.Resolve

namespace Peg

open Generated Host

/-! ### Paths -/

/-- The way to a regular expression. -/
abbrev Path := List Nat

/-- What there is in several things in a row, given the path to them and the number of the first
one. -/
def placedAll {α β : Type} (placed : Path → α → List β) (path : Path) :
    (index : Nat) → List α → List β
  | _, [] => []
  | index, value :: values =>
    placed (path ++ [index]) value ++ placedAll placed path (index + 1) values

mutual

/-- The regular expressions of a pattern from left to right. -/
def Pattern.placedRegexes (path : Path) : Pattern → List (Path × RegexCode)
  | .regex source flags _ => [(path, ⟨source, flags⟩)]
  | .apply _ inner _ => inner.placedRegexes path
  | .group items _ => placedMembers path 0 items
  | .literal _ _ | .any _ | .name _ _ | .variable _ _ | .template _ _ _ => []

/-- The regular expressions of the members of a group. -/
def placedMembers (path : Path) (index : Nat) : List GroupItem → List (Path × RegexCode)
  | [] => []
  | .mk _ pattern _ _ :: items =>
    pattern.placedRegexes (path ++ [index]) ++ placedMembers path (index + 1) items

end

/-- The regular expressions of an alternative. -/
def Alternative.placedRegexes (path : Path) (alternative : Alternative) :
    List (Path × RegexCode) :=
  placedAll (fun path (item : Item) => item.pattern.placedRegexes path) path 0 alternative.items

/-- The regular expressions of a rule. -/
def Rule.placedRegexes (path : Path) (rule : Rule) : List (Path × RegexCode) :=
  placedAll Alternative.placedRegexes path 0 rule.alternatives

/-- The regular expressions of a grammar. -/
def Grammar.placedRegexes (grammar : Grammar) : List (Path × RegexCode) :=
  placedAll Rule.placedRegexes [] 0 grammar.rules

/-! ### Code and programs -/

namespace Generated

mutual

/-- The regular expressions that the code of a matcher uses, with their numbers and
descriptions. -/
def MatcherCode.placedRegexes (path : Path) : MatcherCode → List (Path × Nat × String)
  | .regex number description => [(path, number, description)]
  | .negative inner | .look inner | .attempt inner | .backtrack inner | .external _ inner
  | .repeated _ inner => inner.placedRegexes path
  | .group _ items _ => placedCodes path 0 items
  | .literal _ | .any | .param | .rule _ | .variable _ | .template _ _ => []

/-- The regular expressions that the code of several matchers uses. -/
def placedCodes (path : Path) (index : Nat) : List MatcherCode → List (Path × Nat × String)
  | [] => []
  | item :: items => item.placedRegexes (path ++ [index]) ++ placedCodes path (index + 1) items

end

def AlternativeCode.placedRegexes (path : Path) (alternative : AlternativeCode) :
    List (Path × Nat × String) :=
  placedCodes path 0 alternative.items

def RuleCode.placedRegexes (path : Path) (rule : RuleCode) : List (Path × Nat × String) :=
  placedAll AlternativeCode.placedRegexes path 0 rule.alternatives

/-- The regular expressions that the alternatives of a parser use. -/
def ParserCode.placedRegexes (parser : ParserCode) : List (Path × Nat × String) :=
  placedAll RuleCode.placedRegexes [] 0 parser.rules

end Generated

mutual

/-- The regular expressions of a matcher, with their descriptions. -/
def Matcher.placedRegexes (path : Path) : Matcher → List (Path × Regex × String)
  | .regex expression description => [(path, expression, description)]
  | .negative inner | .look inner | .attempt inner | .backtrack inner | .external _ _ inner
  | .repeated inner _ => inner.placedRegexes path
  | .group items _ => placedMatchers path 0 items
  | .literal _ | .any | .param | .rule _ | .variable _ | .template _ _ => []

/-- The regular expressions of several matchers. -/
def placedMatchers (path : Path) (index : Nat) : List Matcher → List (Path × Regex × String)
  | [] => []
  | item :: items => item.placedRegexes (path ++ [index]) ++ placedMatchers path (index + 1) items

end

def CompiledAlternative.placedRegexes (path : Path) (alternative : CompiledAlternative) :
    List (Path × Regex × String) :=
  placedMatchers path 0 alternative.items

def CompiledRule.placedRegexes (path : Path) (rule : CompiledRule) :
    List (Path × Regex × String) :=
  placedAll CompiledAlternative.placedRegexes path 0 rule.alternatives

/-- The regular expressions of a program. -/
def Program.placedRegexes (program : Program) : List (Path × Regex × String) :=
  placedAll CompiledRule.placedRegexes [] 0 program.rules

/-! ### Order -/

theorem placedItems_eq_members (path : Path) (items : List Item) : ∀ index,
    placedAll (fun path (item : Item) => item.pattern.placedRegexes path) path index items =
      placedMembers path index (items.map (GroupItem.ofItem false)) := by
  induction items with
  | nil => exact fun _ => rfl
  | cons item items ih =>
    intro index
    rw [placedAll, ih]
    rfl

mutual

/-- The order is that in which the regular expressions are declared. -/
theorem regexesOf_eq_map : ∀ (pattern : Pattern) (path : Path),
    regexesOf pattern = (pattern.placedRegexes path).map (·.2)
  | .regex _ _ _, _ => rfl
  | .apply _ inner _, path => regexesOf_eq_map inner path
  | .group items _, path => regexesOfMembers_eq_map items path 0
  | .literal _ _, _ | .any _, _ | .name _ _, _ | .variable _ _, _ | .template _ _ _, _ => rfl

theorem regexesOfMembers_eq_map : ∀ (items : List GroupItem) (path : Path) (index : Nat),
    regexesOfMembers items = (placedMembers path index items).map (·.2)
  | [], _, _ => rfl
  | .mk _ pattern _ _ :: items, path, index => by
    rw [regexesOfMembers, placedMembers, List.map_append,
      ← regexesOf_eq_map pattern, ← regexesOfMembers_eq_map items]

end

theorem regexesOfAlternative_eq_map (alternative : Alternative) (path : Path) :
    regexesOfAlternative alternative = (alternative.placedRegexes path).map (·.2) := by
  rw [regexesOfAlternative, regexesOfItems_eq_members, Alternative.placedRegexes,
    placedItems_eq_members, ← regexesOfMembers_eq_map]

/-- What things in a row have, in the order of the paths. -/
theorem flatMap_eq_map_placedAll {α β γ : Type} {placed : Path → α → List β} {f : α → List γ}
    {g : β → γ} (h : ∀ a path, f a = (placed path a).map g) (path : Path) (values : List α) :
    ∀ index, values.flatMap f = (placedAll placed path index values).map g := by
  induction values with
  | nil => exact fun _ => rfl
  | cons value values ih =>
    intro index
    rw [List.flatMap_cons, placedAll, List.map_append, h value (path ++ [index]), ih (index + 1)]

theorem regexesOfRule_eq_map (rule : Rule) (path : Path) :
    regexesOfRule rule = (rule.placedRegexes path).map (·.2) :=
  flatMap_eq_map_placedAll regexesOfAlternative_eq_map path rule.alternatives 0

/-- A parser declares the regular expressions of the grammar from left to right. -/
theorem regexes_eq_map (grammar : Grammar) :
    grammar.rules.flatMap regexesOfRule = grammar.placedRegexes.map (·.2) :=
  flatMap_eq_map_placedAll regexesOfRule_eq_map [] grammar.rules 0

/-! ### Numbers -/

namespace Generated

/-- Regular expressions with numbers from one on, and with their descriptions. -/
def numbered (first : Nat) (regexes : List (Path × RegexCode)) : List (Path × Nat × String) :=
  (regexes.zipIdx first).map fun (placed, number) => (placed.1, number, placed.2.description)

theorem numbered_append (first : Nat) (regexes others : List (Path × RegexCode)) :
    numbered first (regexes ++ others) =
      numbered first regexes ++ numbered (first + regexes.length) others := by
  rw [numbered, List.zipIdx_append, List.map_append]
  rfl

theorem repeated_placedRegexes (repetition : Option Repetition) (code : MatcherCode)
    (path : Path) :
    (Context.repeated repetition code).placedRegexes path = code.placedRegexes path := by
  cases repetition <;> rfl

/-- Code that is dropped for an instance of a template has no regular expressions. -/
theorem applied_placedRegexes (context : Context) (function : String) (pattern : Pattern)
    {code : MatcherCode} {path : Path} {first : Nat}
    (h : code.placedRegexes path = numbered first (pattern.placedRegexes path)) :
    (context.applied function pattern code).placedRegexes path =
      numbered first (pattern.placedRegexes path) := by
  unfold Context.applied
  split
  · exact h
  · exact h
  · exact h
  · exact h
  · split
    · rfl
    · exact h

mutual

/-- The code for a pattern has the regular expressions of the pattern, numbered. -/
theorem pattern_placedRegexes (context : Context) :
    ∀ (pattern : Pattern) (depth first : Nat) (path : Path),
    (context.pattern depth first pattern).placedRegexes path =
      numbered first (pattern.placedRegexes path)
  | .regex _ _ _, _, _, _ => rfl
  | .apply function inner _, depth, first, path =>
    applied_placedRegexes context function inner
      (pattern_placedRegexes context inner depth first path)
  | .group items _, depth, first, path =>
    members_placedRegexes context items (depth + 1) first path 0
  | .name name _, _, _, _ => by
    rw [Context.pattern]
    split <;> rfl
  | .literal _ _, _, _, _ | .any _, _, _, _ | .variable _ _, _, _, _
  | .template _ _ _, _, _, _ => rfl

theorem members_placedRegexes (context : Context) :
    ∀ (items : List GroupItem) (depth first : Nat) (path : Path) (index : Nat),
    placedCodes path index (context.members depth first items) =
      numbered first (placedMembers path index items)
  | [], _, _, _, _ => rfl
  | .mk _ pattern repetition _ :: items, depth, first, path, index => by
    have hlength : (regexesOf pattern).length =
        (pattern.placedRegexes (path ++ [index])).length := by
      rw [regexesOf_eq_map pattern, List.length_map]
    rw [Context.members, placedCodes, placedMembers, numbered_append, repeated_placedRegexes,
      pattern_placedRegexes context pattern, members_placedRegexes context items, hlength]

end

theorem items_placedRegexes (context : Context) (first : Nat) (alternative : Alternative)
    (path : Path) :
    placedCodes path 0 (context.items first alternative.items) =
      numbered first (alternative.placedRegexes path) := by
  rw [items_eq_members, members_placedRegexes, Alternative.placedRegexes, placedItems_eq_members]

variable {path : Path}

theorem alternativesCode_placedRegexes {context : Context} {function : Identifier}
    {alternatives : List Alternative} : ∀ {number first index : Nat} {codes : List AlternativeCode},
    alternativesCode context function number first alternatives = .ok codes →
      placedAll AlternativeCode.placedRegexes path index codes =
        numbered first (placedAll Alternative.placedRegexes path index alternatives) := by
  induction alternatives with
  | nil =>
    intro number first index codes hcodes
    cases hcodes
    rfl
  | cons alternative alternatives ih =>
    intro number first index codes hcodes
    obtain ⟨result, -, hcodes⟩ := bind_eq_ok_iff.1 hcodes
    obtain ⟨others, hothers, hcodes⟩ := bind_eq_ok_iff.1 hcodes
    cases hcodes
    have hlength : (regexesOfAlternative alternative).length =
        (alternative.placedRegexes (path ++ [index])).length := by
      rw [regexesOfAlternative_eq_map alternative, List.length_map]
    rw [placedAll, placedAll, numbered_append, ih hothers, hlength]
    exact congrArg (· ++ _) (items_placedRegexes context first alternative _)

/-- The code for rules has their regular expressions, numbered from left to right. -/
theorem rulesCode_placedRegexes {grammar : Grammar} {types : List (Identifier × Tokens)}
    {rules : List Rule} : ∀ {first index : Nat} {codes : List RuleCode},
    rulesCode grammar types first rules = .ok codes →
      placedAll RuleCode.placedRegexes path index codes =
        numbered first (placedAll Rule.placedRegexes path index rules) := by
  induction rules with
  | nil =>
    intro first index codes hcodes
    cases hcodes
    rfl
  | cons rule rules ih =>
    intro first index codes hcodes
    obtain ⟨alternatives, halternatives, hcodes⟩ := bind_eq_ok_iff.1 hcodes
    obtain ⟨others, hothers, hcodes⟩ := bind_eq_ok_iff.1 hcodes
    cases hcodes
    have hlength : (regexesOfRule rule).length = (rule.placedRegexes (path ++ [index])).length := by
      rw [regexesOfRule_eq_map rule, List.length_map]
    rw [placedAll, placedAll, numbered_append, ih hothers, hlength]
    exact congrArg (· ++ _) (alternativesCode_placedRegexes halternatives)

/-- A generated parser declares the regular expressions of the grammar from left to right, and uses
them where the grammar has them, by their numbers in this order. -/
theorem ofGrammar_placedRegexes {grammar : Grammar} {options : CompileOptions} {parser : ParserCode}
    (h : ParserCode.ofGrammar grammar options = .ok parser) :
    parser.regexes = grammar.placedRegexes.map (·.2) ∧
      parser.placedRegexes = numbered 0 grammar.placedRegexes := by
  obtain ⟨-, types, rules, -, hrules, rfl⟩ := ParserCode.exists_of_ofGrammar h
  exact ⟨regexes_eq_map grammar, rulesCode_placedRegexes hrules⟩

end Generated

/-! ### Compilation -/

/-- A regular expression of a program is one of a grammar, compiled in a dialect. -/
structure IsCompiled (dialect : Regex.Dialect) (compiled : Path × Regex × String)
    (placed : Path × RegexCode) : Prop where
  path : compiled.1 = placed.1
  expression : Regex.pattern? placed.2.source placed.2.flags dialect = some compiled.2.1
  description : compiled.2.2 = placed.2.description

namespace Resolver

variable {resolver : Resolver} {param : Option String} {path : Path}

theorem builtin?_placedRegexes {function : String} {make : Matcher → Matcher}
    (h : builtin? function = some make) (inner : Matcher) :
    (make inner).placedRegexes path = inner.placedRegexes path := by
  unfold builtin? at h
  split at h <;> cases h <;> rfl

theorem repeatMatcher_placedRegexes (repetition : Option Repetition) (matcher : Matcher) :
    (repeatMatcher repetition matcher).placedRegexes path = matcher.placedRegexes path := by
  cases repetition <;> rfl

mutual

/-- The matcher for a pattern has the regular expressions of the pattern, compiled. -/
theorem resolvePattern_placedRegexes {bound : List Nat} {path : Path} :
    ∀ {pattern : Pattern} {matcher : Matcher},
    resolver.resolvePattern param bound pattern = .ok matcher →
    List.Forall₂ (IsCompiled resolver.options.dialect) (matcher.placedRegexes path)
      (pattern.placedRegexes path)
  | .literal _ _, _, h | .any _, _, h => by
    cases h
    exact .nil
  | .regex source flags span, _, h => by
    obtain ⟨expression, hexpression, rfl⟩ := resolveRegex_cases h
    exact .cons ⟨rfl, hexpression, rfl⟩ .nil
  | .name name span, _, h => by
    rcases resolveName_cases h with ⟨-, rfl⟩ | ⟨-, id, -, rfl⟩
    · exact .nil
    · exact .nil
  | .variable index span, _, h => by
    obtain ⟨rfl, -⟩ := resolveVariable_cases h
    exact .nil
  | .template function body span, _, h => by
    obtain ⟨id, -, rfl⟩ := resolveInstance_cases h
    exact .nil
  | .apply function inner span, _, h => by
    cases applied_of_resolvePattern h with
    | @builtin _ _ body hmake hbody =>
      rw [builtin?_placedRegexes hmake]
      show List.Forall₂ _ (body.placedRegexes path) (inner.placedRegexes path)
      exact resolvePattern_placedRegexes hbody
    | template hbuiltin hid => exact .nil
    | @external _ _ body _ _ _ hbody =>
      show List.Forall₂ _ (body.placedRegexes path) (inner.placedRegexes path)
      exact resolvePattern_placedRegexes hbody
  | .group items span, _, h => by
    obtain ⟨matchers, hmatchers, rfl⟩ := resolveGroup_cases h
    exact resolveGroupItems_placedRegexes hmatchers

theorem resolveGroupItems_placedRegexes {outer : List Nat} {path : Path} :
    ∀ {items : List GroupItem} {number index : Nat} {matchers : List Matcher},
    resolver.resolveGroupItems param outer number items = .ok matchers →
    List.Forall₂ (IsCompiled resolver.options.dialect) (placedMatchers path index matchers)
      (placedMembers path index items)
  | [], _, _, _, h => by
    cases h
    exact .nil
  | .mk important pattern repetition itemSpan :: items, _, _, _, h => by
    rw [resolveGroupItems] at h
    obtain ⟨matcher, hmatcher, h⟩ := bind_eq_ok_iff.1 h
    obtain ⟨matchers, hmatchers, h⟩ := bind_eq_ok_iff.1 h
    rw [resolveGroupItem] at hmatcher
    obtain ⟨body, hbody, hmatcher⟩ := bind_eq_ok_iff.1 hmatcher
    cases hmatcher
    cases h
    rw [placedMatchers, placedMembers, repeatMatcher_placedRegexes]
    exact List.rel_append (resolvePattern_placedRegexes hbody)
      (resolveGroupItems_placedRegexes hmatchers)

end

theorem resolveAlternative_placedRegexes {alternative : Alternative}
    {compiled : CompiledAlternative}
    (h : resolver.resolveAlternative param alternative = .ok compiled) :
    List.Forall₂ (IsCompiled resolver.options.dialect) (compiled.placedRegexes path)
      (alternative.placedRegexes path) := by
  rw [CompiledAlternative.placedRegexes, Alternative.placedRegexes, placedItems_eq_members]
  exact resolveGroupItems_placedRegexes (resolveAlternative_items h)

end Resolver

/-- What is related for each of two things in a row is related for all. -/
theorem forall₂_placedAll {α β γ δ : Type} {related : γ → δ → Prop} {left : Path → α → List γ}
    {right : Path → β → List δ} {values : List α} {others : List β}
    (h : List.Forall₂ (fun a b => ∀ path, List.Forall₂ related (left path a) (right path b))
      values others) (path : Path) : ∀ index,
    List.Forall₂ related (placedAll left path index values)
      (placedAll right path index others) := by
  induction h with
  | nil => exact fun _ => .nil
  | cons hfirst hothers ih => exact fun index => List.rel_append (hfirst _) (ih (index + 1))

/-- The program for a grammar has the regular expressions of the grammar, compiled. -/
theorem compile_placedRegexes {grammar : Grammar} {options : CompileOptions} {program : Program}
    (h : grammar.compile options = .ok program) :
    List.Forall₂ (IsCompiled options.dialect) program.placedRegexes grammar.placedRegexes := by
  obtain ⟨-, hrules, -⟩ := Grammar.compile_eq_ok_iff.1 h
  refine forall₂_placedAll (hrules.flip.imp fun compiled rule hrule path => ?_) [] 0
  obtain ⟨alternatives, halternatives, rfl⟩ := Resolver.resolveRule_eq_ok_iff.1 hrule
  exact forall₂_placedAll (halternatives.flip.imp fun compiled alternative halternative path =>
    Resolver.resolveAlternative_placedRegexes halternative) path 0

end Peg
