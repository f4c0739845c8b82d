/-
Peg/Proofs/Grammar/Terminates.lean

Every run of an accepted program ends.

Programs come from the compiler, which makes them well-scoped: rules that are
called exist, and only templates look at a parameter.  Together with the check
for left recursion that is all the termination argument needs, apart from
matchers that may go backward or run code of the host.

The grammar of grammars is such a program, so reading a grammar always ends in
a tree or in a failure.
-/
import Peg.Proofs.Grammar.Meta
import Peg.Proofs.Program.Fallback
import Peg.Proofs.Program.Termination
import Peg.Proofs.Regex.Empty

namespace Peg

/-- Matchers that do not look at what follows, if they are regular expressions. -/
def Matcher.looksBack : Matcher → Bool
  | .regex expression _ => expression.looksBack
  | _ => true

namespace Program

variable {program : Program}

/-- In a well-scoped program calls go to rules that exist, and rules that are called by their names
have no parameter. -/
theorem WellScoped.resolved (h : program.WellScoped) :
    program.Every (Matcher.IsResolved program) := by
  intro rule hrule part hpart
  obtain ⟨bound, hscoped⟩ := h.part hrule hpart
  cases part with
  | rule id =>
    obtain ⟨head, hhead, hsimple⟩ := hscoped
    rw [heads, List.getElem?_map, Option.map_eq_some_iff] at hhead
    obtain ⟨called, hcalled, rfl⟩ := hhead
    refine ⟨called, hcalled, fun part hpart => ?_⟩
    obtain ⟨bound, hscoped⟩ := h.part (List.mem_of_getElem? hcalled) hpart
    cases part with
    | param => exact absurd (show called.head.isTemplate = true from hscoped) (by simp [hsimple])
    | _ => rfl
  | template id argument =>
    obtain ⟨head, hhead, -⟩ := hscoped
    show id < program.rules.length
    simpa [heads] using (List.getElem?_eq_some_iff.1 hhead).1
  | _ => trivial

/-- All regular expressions of a program that match an empty beginning match the empty text. -/
def DetectsEmpty (program : Program) : Prop :=
  program.Every fun
    | .regex expression _ => expression.DetectsEmpty
    | _ => True

/-- So they do if they do not look at what follows. -/
theorem detectsEmpty_of_looksBack (h : program.Every fun m => m.looksBack = true) :
    program.DetectsEmpty := by
  refine h.mono fun m hm => ?_
  cases m with
  | regex expression description => exact fun text htext => Regex.matchesEmpty_of_looksBack hm htext
  | _ => trivial

theorem DetectsEmpty.detectsEmptyIn (h : program.DetectsEmpty) (input : List Char) :
    program.Every (Matcher.DetectsEmptyIn input) := by
  refine h.mono fun m hm => ?_
  cases m with
  | regex expression description => exact fun _ here _ hlength => hm here hlength
  | _ => trivial

/-- A rule ends, in the same way for every sufficient amount of fuel. -/
def Terminates (program : Program) (id : Nat) (input : List Char) (start : Nat) : Prop :=
  ∃ answer, Run.Ends (some answer) ∧ program.runRule id input start = some answer ∧
    ∀ fuel, program.fuel input ≤ fuel →
      program.matchRule (program.matcher fuel) id none input start = some answer

theorem terminates (hscoped : program.WellScoped)
    (hbacktrack : program.Every fun m => m.isBacktrack = false)
    (hexternal : program.Every fun m => m.isExternal = false)
    (hregex : program.DetectsEmpty)
    (hchecked : program.checkLeftRecursion program.nullable = .ok ()) {id : Nat}
    (hid : id < program.rules.length) (input : List Char) (start : Nat) :
    program.Terminates id input start := by
  have hforward : program.Every Matcher.IsForward := by
    intro rule hrule part hpart
    have hback := hbacktrack rule hrule part hpart
    have hhost := hexternal rule hrule part hpart
    have hempty := hregex rule hrule part hpart
    cases part with
    | backtrack inner => cases hback
    | external name transformer inner => cases hhost
    | regex expression description => exact hempty
    | _ => trivial
  have hregistered : program.Every fun m => m.isRegistered = false := by
    refine hexternal.mono fun m hm => ?_
    cases m with
    | external name transformer inner => cases hm
    | _ => rfl
  have hends := runRule_ends ⟨hforward, hscoped.resolved⟩ hchecked hid input start
  -- more fuel changes nothing about a run that has ended
  have hbelow : ∀ fuel, program.fuel input ≤ fuel → Run.Below (program.runRule id input start)
      (program.matchRule (program.matcher fuel) id none input start) := fun fuel hfuel =>
    matchRule_below (fun rule hrule alternative halternative item hitem scope =>
      matcher_below hregistered hfuel scope (hregistered.ofItem hrule halternative hitem))
      none input start
  rcases hrun : program.runRule id input start with - | answer
  · rw [hrun] at hends
    cases hends
  · rw [hrun] at hends
    exact ⟨answer, hends, hrun, fun fuel hfuel => (hbelow fuel hfuel).eq_some hrun⟩

end Program

/-! ### The grammar of grammars -/

namespace Meta

/-- Matchers that cannot go backward, run code of the host or look ahead in a regular
expression. -/
def isPlain : Matcher → Bool
  | .backtrack _ | .external _ _ _ => false
  | .regex expression _ => expression.looksBack
  | _ => true

theorem every_isPlain : program.Every fun m => isPlain m = true := by
  decide +kernel

theorem compile_eq : metaGrammar.compile {} = .ok program :=
  metaProgram_eq

theorem terminates (name : Name) (input : List Char) (start : Nat) :
    program.Terminates name.number input start := by
  refine Program.terminates (Grammar.wellScoped_compile compile_eq)
    (every_isPlain.mono fun m hm => ?_) (every_isPlain.mono fun m hm => ?_)
    (every_isPlain.mono fun m hm => ?_) ((Grammar.compile_eq_ok_iff.1 compile_eq).2.2 rfl)
    (List.getElem?_eq_some_iff.1 (rules_number name)).1 input start
  · cases m with
    | backtrack inner => cases hm
    | _ => rfl
  · cases m with
    | external name transformer inner => cases hm
    | _ => rfl
  · cases m with
    | regex expression description =>
      exact fun text htext => Regex.matchesEmpty_of_looksBack hm htext
    | _ => trivial

/-- Grammars are read from their first rule on. -/
theorem execute_eq (source : List Char) (full : Bool) : program.execute source none full =
    Program.result source full (program.runRule Name.grammar.number source 0) := by
  have hentry : program.entry? = some Name.grammar.number := by decide
  simp only [Program.execute, Program.executeWithEvents, Program.startRule, hentry]

end Meta

/-- Reading a grammar ends in a tree or in a failure. -/
theorem Grammar.parse_eq (source : String) :
    (∃ events value stop, Meta.program.runRule Meta.Name.grammar.number source.toList 0 =
        some (events, .success value stop) ∧
      parse source = ofMatch source.toList ⟨value, stop⟩) ∨
    ∃ events failure, Meta.program.runRule Meta.Name.grammar.number source.toList 0 =
        some (events, .failure failure) ∧
      parse source = .error (syntaxError (.failed failure)) := by
  obtain ⟨answer, hends, hrun, -⟩ := Meta.terminates .grammar source.toList 0
  have hexecute : Meta.program.execute source.toList none false =
      Program.result source.toList false (some answer) := by
    rw [Meta.execute_eq, hrun]
  rw [parse, metaProgram_eq]
  cases hends with
  | success events value stop =>
    refine .inl ⟨events, value, stop, hrun, ?_⟩
    simp only [bind, Except.bind, hexecute]
    rfl
  | failure events failure =>
    refine .inr ⟨events, failure, hrun, ?_⟩
    simp only [bind, Except.bind, hexecute]
    rfl

/-! ### All programs -/

/-- Accepted programs terminate: whatever the compiler makes, without backward matchers and
functions of the host, when it has no left recursion and its regular expressions match the empty
text if they match an empty beginning.  So does reading a grammar. -/
theorem Program.accepted_terminates :
    (∀ (grammar : Grammar) (options : CompileOptions) (program : Program),
      grammar.compile options = .ok program →
      (program.Every fun m => m.isBacktrack = false) →
      (program.Every fun m => m.isExternal = false) →
      program.DetectsEmpty →
      program.checkLeftRecursion program.nullable = .ok () →
      ∀ id < program.rules.length, ∀ input start, program.Terminates id input start) ∧
    ∀ source : String,
      (∃ tree, Grammar.parse source = Grammar.ofMatch source.toList tree) ∨
        ∃ failure, Grammar.parse source = .error (Grammar.syntaxError (.failed failure)) := by
  constructor
  · intro grammar options program hcompile hbacktrack hexternal hregex hchecked id hid input start
    exact terminates (Grammar.wellScoped_compile hcompile) hbacktrack hexternal hregex hchecked hid
      input start
  · intro source
    rcases Grammar.parse_eq source with ⟨events, value, stop, -, h⟩ | ⟨events, failure, -, h⟩
    · exact .inl ⟨_, h⟩
    · exact .inr ⟨failure, h⟩

/-- A template that is run on its own, past the end of the text. -/
theorem doubled_terminates : Doubled.program.Terminates 1 "x".toList 5 := by
  refine Program.accepted_terminates.1 Doubled.grammar {} Doubled.program Doubled.compile_grammar
    (by decide) (by decide) ?_ (by decide +kernel) 1 (by decide) _ 5
  have hregex : Doubled.program.Every fun m => Meta.isPlain m = true := by decide
  refine hregex.mono fun m hm => ?_
  cases m with
  | regex expression description => exact fun text htext => Regex.matchesEmpty_of_looksBack hm htext
  | _ => trivial

end Peg
