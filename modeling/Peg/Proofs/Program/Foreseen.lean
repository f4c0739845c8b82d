/-
Peg/Proofs/Program/Foreseen.lean

What the tables of nullable rules foresee.

The tables are meant to list every way to match nothing:

    a rule stops where it started, before blanks    →  it has an entry
    a matcher of a rule stops where it started      →  it is nullable

for every text, every offset and both kinds of literals.  `Foresees` says so.
A regular expression, though, is looked at on the empty text only.  It may
match nothing elsewhere, before a word for instance, and then neither it nor
its rule is foreseen.

That is the only gap.  Without backward matchers and functions of the host,
the tables foresee everything exactly if every regular expression that matches
an empty beginning of some text matches the empty text
(`compile_foresees_iff`).  In one direction this is the progress of matches;
in the other the text itself is matched from its beginning.
-/
import Peg.Proofs.Grammar.Terminates

namespace Peg

/-! ### What is promised -/

/-- Whether a rule is given the empty literal, which it is too when it is run on its own.  A simple
rule is not given any. -/
def CompiledRule.givenEmpty (rule : CompiledRule) (param : Option String) : Bool :=
  rule.head.isTemplate && (param.getD "").isEmpty

namespace CompiledRule

variable {rule : CompiledRule}

@[simp] theorem givenEmpty_of_simple (h : rule.head.isTemplate = false) (param : Option String) :
    rule.givenEmpty param = false := by
  rw [givenEmpty, h, Bool.false_and]

@[simp] theorem givenEmpty_of_template (h : rule.head.isTemplate = true) (param : Option String) :
    rule.givenEmpty param = (param.getD "").isEmpty := by
  rw [givenEmpty, h, Bool.true_and]

end CompiledRule

namespace Program

/-- What the alternatives of a rule match, before the blanks after it. -/
def matchBody (program : Program) (fuel : Nat) (rule : CompiledRule) (param : Option String) :
    Matching Value :=
  Combinator.choice (rule.alternatives.map fun alternative =>
    matchAlternative (program.matcher fuel) alternative param)

/-- Rules that stop where they started have an entry, and matchers that do are nullable. -/
structure Foresees (program : Program) : Prop where
  rules : ∀ id rule, program.rules[id]? = some rule →
    ∀ fuel param input start events value,
      program.matchBody fuel rule param input start = some (events, .success value start) →
      program.nullable.rule id (rule.givenEmpty param) = true
  matchers : ∀ rule ∈ program.rules, ∀ part ∈ rule.parts,
    ∀ fuel param captures input start events value,
      program.matcher fuel ⟨param, captures⟩ part input start =
        some (events, .success value start) →
      part.isNullable program.nullable (rule.givenEmpty param) = true

variable {program : Program}

/-! ### When it is kept -/

/-- Only templates look at a parameter. -/
theorem WellScoped.isTemplate_of_isParam (h : program.WellScoped) {rule : CompiledRule}
    (hrule : rule ∈ program.rules) {part : Matcher} (hpart : part ∈ rule.parts)
    (hisParam : part.isParam = true) : rule.head.isTemplate = true := by
  obtain ⟨bound, hscoped⟩ := h.part hrule hpart
  cases part with
  | param => simpa only [Matcher.Scoped] using hscoped
  | _ => cases hisParam

/-- So the kind of parameter that matters to a matcher is the one there is. -/
theorem WellScoped.fits (h : program.WellScoped) {rule : CompiledRule}
    (hrule : rule ∈ program.rules) {m : Matcher} (hm : m ∈ rule.parts) (param : Option String) :
    m.Fits param (rule.givenEmpty param) := by
  intro part hpart hisParam hempty
  have htemplate := h.isTemplate_of_isParam hrule ((rule.parts_sublist hm).subset hpart) hisParam
  rw [CompiledRule.givenEmpty_of_template htemplate, hempty]
  rfl

theorem WellScoped.isForwardIn (h : program.WellScoped)
    (hbacktrack : program.Every fun m => m.isBacktrack = false)
    (hexternal : program.Every fun m => m.isExternal = false) (hregex : program.DetectsEmpty)
    (input : List Char) : program.IsForwardIn input where
  backtrack := hbacktrack
  external := hexternal
  regexes := hregex.detectsEmptyIn input
  resolved := h.resolved

theorem foresees_of_detectsEmpty (hscoped : program.WellScoped)
    (hbacktrack : program.Every fun m => m.isBacktrack = false)
    (hexternal : program.Every fun m => m.isExternal = false) (hregex : program.DetectsEmpty) :
    program.Foresees := by
  have hforward := hscoped.isForwardIn hbacktrack hexternal hregex
  constructor
  · intro id rule hrule fuel param input start events value hrun
    have hmem := List.mem_of_getElem? hrule
    -- the body of a rule is a choice, and every alternative keeps to the table
    have hbody : (program.matchBody fuel rule param input start).Ensures
        (fun _ stop => Progress input start (program.nullable.rule id (rule.givenEmpty param)) stop)
        fun _ => True := by
      refine Combinator.choice_ensures (fun matching hmatching => ?_) trivial
      obtain ⟨alternative, halternative, rfl⟩ := List.mem_map.1 hmatching
      refine matchAlternative_progress hrule halternative fun item hitem captures start => ?_
      have hpart : item ∈ rule.parts :=
        mem_parts_of_item halternative hitem item.mem_parts_self
      exact (hforward input).progress fuel (.ofRule hmem hpart) (hscoped.fits hmem hpart param)
        captures start
    exact (hbody.success hrun).nullable_of_stays
  · intro rule hrule part hpart fuel param captures input start events value hrun
    have hprogress := (hforward input).progress fuel (.ofRule hrule hpart)
      (hscoped.fits hrule hpart param) captures start
    exact (hprogress.success hrun).nullable_of_stays

/-! ### When it is not -/

/-- A regular expression that matches an empty beginning does so at the beginning of that text. -/
theorem detectsEmpty_of_foresees (h : program.Foresees) : program.DetectsEmpty := by
  intro rule hrule part hpart
  cases part with
  | regex expression description =>
    intro text htext
    -- one step is enough, and a regular expression does not look at its scope
    have hrun : program.matcher 1 ⟨none, []⟩ (.regex expression description) text 0 =
        some ([], .success (.str (String.ofList ((Text.takeBytes? text 0).getD []))) 0) := by
      simp only [matcher, Primitive.regex, Text.dropBytes?_zero, htext]
      rfl
    exact h.matchers rule hrule _ hpart 1 none [] text 0 _ _ hrun
  | _ => trivial

end Program

/-- The tables of an accepted program foresee every match of nothing exactly if no regular
expression is hidden from them, that is, if those that match an empty beginning of some text match
the empty text. -/
theorem Grammar.compile_foresees_iff {grammar : Grammar} {options : CompileOptions}
    {program : Program} (hcompile : grammar.compile options = .ok program)
    (hbacktrack : program.Every fun m => m.isBacktrack = false)
    (hexternal : program.Every fun m => m.isExternal = false) :
    program.Foresees ↔ program.DetectsEmpty :=
  ⟨Program.detectsEmpty_of_foresees, Program.foresees_of_detectsEmpty
    (Grammar.wellScoped_compile hcompile) hbacktrack hexternal⟩

/-! ### Seen and unseen -/

namespace Starred

/-- A template that may match nothing when its literal is empty. -/
def grammar : Grammar :=
  { rules := [
      ⟨.simple "pair", none, [⟨[⟨.template (some "word") "," {}, none, {}⟩,
        ⟨.template (some "word") "" {}, none, {}⟩], none, {}⟩], {}⟩,
      ⟨.template (some "word") "s", none, [⟨[⟨.regex "x*" "" {}, none, {}⟩,
        ⟨.name "s" {}, none, {}⟩], none, {}⟩], {}⟩] }

def expression : Regex :=
  .seq (.assertion .textStart) (.star true (.chars (.range 'x' 'x')))

def program : Program :=
  ⟨[⟨.simple "pair", false, [⟨[.template 1 ",", .template 1 ""], none⟩], {}⟩,
    ⟨.template (some "word") "s", true, [⟨[.regex expression "/x*/", .param], none⟩], {}⟩]⟩

/-- Before other letters the expression matches nothing, as it does on the empty text. -/
theorem program_foresees : grammar.compile {} = .ok program ∧
    (program.Every fun m => m.isBacktrack = false) ∧
    (program.Every fun m => m.isExternal = false) ∧
    program.DetectsEmpty ∧ program.Foresees ∧
    program.nullable = ⟨[false, false], [false, true]⟩ := by
  have hcompile : grammar.compile {} = .ok program := rfl
  have hbacktrack : program.Every fun m => m.isBacktrack = false := by decide
  have hexternal : program.Every fun m => m.isExternal = false := by decide
  have hregex : program.DetectsEmpty := Program.detectsEmpty_of_looksBack (by decide)
  exact ⟨hcompile, hbacktrack, hexternal, hregex,
    (Grammar.compile_foresees_iff hcompile hbacktrack hexternal).2 hregex, by decide +kernel⟩

end Starred

namespace Edge

/-- The edge of a word, which the empty text does not have. -/
def grammar : Grammar :=
  { rules := [⟨.simple "a", none, [⟨[⟨.regex "\\b" "" {}, none, {}⟩], none, {}⟩], {}⟩] }

def program : Program :=
  ⟨[⟨.simple "a", false, [⟨[.regex
    (.seq (.assertion .textStart) (.assertion (.word .boundary false))) "/\\b/"], none⟩], {}⟩]⟩

/-- Before a word the rule matches nothing, and it has no entry. -/
theorem edge_unforeseen : grammar.compile {} = .ok program ∧
    (program.Every fun m => m.isBacktrack = false) ∧
    (program.Every fun m => m.isExternal = false) ∧
    program.runRule 0 "x".toList 0 =
      some ([.entered 0 none "x".toList 0, .matched 0 0], .success (.str "") 0) ∧
    program.nullable = ⟨[false], [false]⟩ ∧ ¬program.Foresees := by
  have hbody : program.matchBody 1 program.rules[0] none "x".toList 0 =
      some ([], .success (.str "") 0) := rfl
  refine ⟨rfl, by decide, by decide, rfl, by decide, fun hforesees => ?_⟩
  have hentry : program.nullable.rule 0 false = true :=
    hforesees.rules 0 program.rules[0] rfl 1 none "x".toList 0 [] (.str "") hbody
  exact absurd hentry (by decide)

end Edge

end Peg
