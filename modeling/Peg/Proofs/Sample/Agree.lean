/-
Peg/Proofs/Sample/Agree.lean

The sample parsers agree with the interpreter.

A sample comes in three forms: functions that apply the combinators, the
program that its grammar compiles to, and the parser that is generated for the
grammar.  The program is written out here, and that the grammar compiles to it
is found out by compiling the grammar.  Given the program, the functions are
what it makes of them, rule by rule, and the generated code is that of the
program because it always is.
-/
import Peg.Proofs.Generated.OfGrammar
import Peg.Proofs.Grammar.Meta
import Peg.Proofs.Sample.Function
import Peg.Sample.Echoes
import Peg.Sample.Lists
import Peg.Sample.Locals

namespace Peg

open Generated

/-! ### Compiling a sample -/

namespace Sample

section

variable {program : Program} {parser : ParserCode} {rules : Rules}

/-- A text is the grammar of a program and of a generated parser. -/
structure Generates (source : String) (program : Program) (parser : ParserCode) : Prop where
  grammar : ∃ grammar, Grammar.parse source = .ok grammar ∧ grammar.compile {} = .ok program ∧
    ParserCode.ofGrammar grammar .forCodegen = .ok parser

/-- Functions, by the names of the rules, come to the same end as the rules of a program and the
functions of a generated parser, from any offset of any text and in whatever host code.  So does
the function that matches from the beginning. -/
structure Agree (functions : List (String × Matching Value)) (parse : List Char → Run Value)
    (program : Program) (parser : ParserCode) : Prop where
  rule : ∀ name id, program.ruleId? name = some id → ∃ function, (name, function) ∈ functions ∧
    ∀ input start,
      (program.runRule id input start).Ends ∧
      (function input start).outcome? = (program.runRule id input start).outcome? ∧
      ∀ (ν : Type) (host : HostCode ν) (fuel : Nat), program.fuel input ≤ fuel →
        (parser.call host fuel (.ofName name) none input start).outcome? =
          (program.runRule id input start).outcome?.map (Outcome.map .value)
  entry : ∃ id, program.entry? = some id ∧ ∀ input,
    (program.runRule id input 0).Ends ∧
    (parse input).outcome? = (program.runRule id input 0).outcome? ∧
    ∀ (ν : Type) (host : HostCode ν) (fuel : Nat), program.fuel input ≤ fuel →
      (parser.parse host fuel input).outcome? =
        (program.runRule id input 0).outcome?.map (Outcome.map .value)

/-- Whether a program is that of a grammar, which leaves nothing to the host. -/
def isProgramOf (text : List Char) (program : Program) : Bool :=
  (Grammar.ofChars text).toOption.any fun grammar =>
    (grammar.compile {}).toOption.any (·.same program) &&
      (ParserCode.ofGrammar grammar .forCodegen).toOption.isSome &&
        decide (SelfContained grammar)

theorem exists_of_isProgramOf {text : List Char} (h : isProgramOf text program = true) :
    ∃ grammar parser, Grammar.parse (String.ofList text) = .ok grammar ∧
      grammar.compile {} = .ok program ∧ ParserCode.ofGrammar grammar .forCodegen = .ok parser ∧
      SelfContained grammar := by
  obtain ⟨grammar, hgrammar, h⟩ := Grammar.exists_parse_of_any h
  simp only [Bool.and_eq_true, decide_eq_true_eq] at h
  obtain ⟨⟨hcompiled, hgenerated⟩, hcontained⟩ := h
  obtain ⟨compiled, hcompiled, hsame⟩ := (Option.any_eq_true _ _).1 hcompiled
  obtain ⟨parser, hparser⟩ := Option.isSome_iff_exists.1 hgenerated
  -- programs hold functions, so they are compared part by part
  rw [Program.eq_of_same hsame] at hcompiled
  exact ⟨grammar, parser, hgrammar, eq_ok_of_toOption hcompiled, eq_ok_of_toOption hparser,
    hcontained⟩

theorem functionOf_of_simpleName? {head : RuleHead} {name : String}
    (h : head.simpleName? = some name) : functionOf head = .ofName name := by
  cases head with
  | simple name' =>
    cases h
    rfl
  | template => cases h

/-- The functions of the simple rules by name.  For a program that is written out this is a list of
functions. -/
def named (rules : Rules) (program : Program) : List (String × Matching Value) :=
  program.rules.zipIdx.filterMap fun (rule, id) =>
    rule.head.simpleName?.map fun name => (name, rules id none)

/-- Functions that fit a program agree with it, and so does the parser that is generated for its
grammar. -/
theorem exists_agree {text : List Char} (hprogram : isProgramOf text program = true)
    (hfits : Fits rules program) (htextual : isTextual program = true)
    (hlayered : program.isLayered = true) {first : Nat} (hfirst : program.entry? = some first) :
    ∃ parser, Generates (String.ofList text) program parser ∧
      Agree (named rules program) (fun input => rules first none input 0) program parser := by
  obtain ⟨grammar, parser, hgrammar, hcompile, hgenerate, hcontained⟩ :=
    exists_of_isProgramOf hprogram
  have hsteady := Program.isSteady_of_isLayered hlayered
  have hends : ∀ id (hid : id < program.rules.length) input start,
      (program.runRule id input start).Ends := fun id hid input start =>
    Program.call_ends hlayered hid none input start (Nat.le_refl _)
  have hfunction : ∀ id (hid : id < program.rules.length) input start fuel,
      program.fuel input ≤ fuel →
      (rules id none input start).outcome? = (program.call fuel id none input start).outcome? :=
    fun id hid input start fuel hfuel =>
      call_function hfits htextual hlayered hid none input start hfuel
  -- generated code is compared fuel for fuel, and more fuel makes no difference
  have hmore : ∀ id (hid : id < program.rules.length) input start fuel,
      program.fuel input ≤ fuel →
      (program.call fuel id none input start).outcome? =
        (program.runRule id input start).outcome? := fun id hid input start fuel hfuel =>
    (hfunction id hid input start fuel hfuel).symm.trans
      (hfunction id hid input start _ (Nat.le_refl _))
  refine ⟨parser, ⟨grammar, hgrammar, hcompile, hgenerate⟩, fun name id hid => ?_, first, hfirst,
    fun input => ?_⟩
  · obtain ⟨hlt, hname, -⟩ := List.findIdx?_eq_some_iff_getElem.1 hid
    rw [beq_iff_eq] at hname
    have hrule : (program.rules[id], id) ∈ program.rules.zipIdx :=
      List.mem_zipIdx_iff_getElem?.2 (List.getElem?_eq_getElem hlt)
    refine ⟨rules id none, List.mem_filterMap.2 ⟨_, hrule, ?_⟩, fun input start =>
      ⟨hends id hlt input start, hfunction id hlt input start _ (Nat.le_refl _),
        fun ν host fuel hfuel => ?_⟩⟩
    · dsimp only
      rw [hname]
      rfl
    · obtain ⟨source, hsource, hhead⟩ :=
        exists_rule_of_compile hcompile (List.getElem?_eq_getElem hlt)
      have hnamed : functionOf source.head = .ofName name := by
        rw [hhead]
        exact functionOf_of_simpleName? hname
      rw [← hnamed, generated_agrees hcontained hcompile hgenerate hsteady host hsource,
        hmore id hlt input start fuel hfuel]
  · obtain ⟨hlt, -⟩ := List.findIdx?_eq_some_iff_getElem.1 hfirst
    refine ⟨hends first hlt input 0, hfunction first hlt input 0 _ (Nat.le_refl _),
      fun ν host fuel hfuel => ?_⟩
    rw [generated_parse_agrees hcontained hcompile hgenerate hsteady host hfirst,
      hmore first hlt input 0 fuel hfuel]

end

namespace Locals

/-- The grammar, compiled. -/
def program : Program where
  rules := [
    ⟨.simple "top", false, [⟨[.rule 1, .rule 2, .rule 3, .rule 4, .rule 5], none⟩], ⟨54, 90⟩⟩,
    ⟨.simple "start", false, [⟨[.literal "a"], none⟩], ⟨90, 104⟩⟩,
    ⟨.simple "end", false, [⟨[.literal "b"], none⟩], ⟨104, 116⟩⟩,
    ⟨.simple "input", false, [⟨[.literal "c"], none⟩], ⟨116, 130⟩⟩,
    ⟨.simple "param", false, [⟨[.literal "d"], none⟩], ⟨130, 145⟩⟩,
    ⟨.simple "next", false, [⟨[.literal "e"], some .text⟩], ⟨145, 172⟩⟩]

/-- The functions by the numbers of the rules. -/
def rules : Rules
  | 0, _ => top
  | 1, _ => start
  | 2, _ => stop
  | 3, _ => input
  | 4, _ => param
  | _, _ => next

theorem fits : Fits rules program := by
  intro id rule hrule param
  match id with
  | 0 | 1 | 2 | 3 | 4 | 5 =>
    cases hrule
    rfl

set_option maxRecDepth 100000 in
theorem isProgramOf_source : ∃ text, source = String.ofList text ∧
    isProgramOf text program = true :=
  ⟨_, rfl, by decide +kernel⟩

/-- The functions of the simple rules by name. -/
def functions : List (String × Matching Value) :=
  [("top", top), ("start", start), ("end", stop), ("input", input), ("param", param), ("next", next)]

theorem functions_agree : ∃ parser, Generates source program parser ∧
    Agree functions parse program parser := by
  obtain ⟨text, hsource, hprogram⟩ := isProgramOf_source
  rw [hsource]
  exact exists_agree hprogram fits (by decide) (by decide) rfl

end Locals

namespace Echoes

/-- The grammar, compiled. -/
def program : Program where
  rules := [
    ⟨.simple "pair", false, [⟨[.template 3 "x", .variable 0], some .text⟩], ⟨0, 31⟩⟩,
    ⟨.simple "twice", false, [⟨[.rule 2, .literal " ", .variable 0], none⟩], ⟨31, 53⟩⟩,
    ⟨.simple "word", false, [⟨[.regex letters.regex (Regex.describe letters.source "")], none⟩],
      ⟨53, 72⟩⟩,
    ⟨.template none "k", true, [⟨[.param], none⟩], ⟨72, 82⟩⟩]

/-- The functions by the numbers of the rules. -/
def rules : Rules
  | 0, _ => pair
  | 1, _ => twice
  | 2, _ => word
  | _, param => template (param.getD "")

theorem fits : Fits rules program := by
  intro id rule hrule param
  match id with
  | 0 | 1 | 2 | 3 =>
    cases hrule
    rfl

set_option maxRecDepth 100000 in
theorem isProgramOf_source : ∃ text, source = String.ofList text ∧
    isProgramOf text program = true :=
  ⟨_, rfl, by decide +kernel⟩

/-- The functions of the simple rules by name. -/
def functions : List (String × Matching Value) :=
  [("pair", pair), ("twice", twice), ("word", word)]

theorem functions_agree : ∃ parser, Generates source program parser ∧
    Agree functions parse program parser := by
  obtain ⟨text, hsource, hprogram⟩ := isProgramOf_source
  rw [hsource]
  exact exists_agree hprogram fits (by decide) (by decide) rfl

end Echoes

namespace Lists

/-- The matcher for an expression. -/
def matcher (expression : Expression) : Matcher :=
  .regex expression.regex (Regex.describe expression.source "")

/-- The grammar, compiled. -/
def program : Program where
  rules := [
    ⟨.simple "list", false,
      [⟨[.literal "[", .rule 8, .repeated (.rule 1) .optional, .literal "]", .rule 8], none⟩],
      ⟨49, 79⟩⟩,
    ⟨.simple "items", false,
      [⟨[.rule 2, .repeated (.group [.literal ",", .rule 8, .rule 2] [2]) .any], none⟩],
      ⟨79, 111⟩⟩,
    ⟨.simple "item", false,
      [⟨[.template 7 "nil"], none⟩, ⟨[.attempt (.rule 3)], none⟩, ⟨[.rule 5], none⟩,
        ⟨[.rule 4], none⟩, ⟨[.rule 6], none⟩],
      ⟨111, 182⟩⟩,
    ⟨.simple "bang", false, [⟨[.rule 4, .literal "!"], none⟩], ⟨182, 201⟩⟩,
    ⟨.simple "word", false,
      [⟨[.look (matcher letter), .repeated (.negative (matcher otherThanLetter)) .oneOrMore, .rule 8],
        some .text⟩],
      ⟨201, 257⟩⟩,
    ⟨.simple "number", false,
      [⟨[matcher digits, .look (.backtrack (matcher digit)), .rule 8], none⟩], ⟨257, 305⟩⟩,
    ⟨.simple "quoted", false,
      [⟨[.literal "\"", .repeated (.negative (.literal "\"")) .any, .literal "\"", .rule 8], none⟩],
      ⟨305, 338⟩⟩,
    ⟨.template (some "kw") "k", true, [⟨[.param], none⟩], ⟨338, 350⟩⟩,
    ⟨.simple "ws", false, [⟨[matcher blanks], none⟩], ⟨350, 363⟩⟩]

/-- The functions by the numbers of the rules. -/
def rules : Rules
  | 0, _ => list
  | 1, _ => items
  | 2, _ => item
  | 3, _ => bang
  | 4, _ => word
  | 5, _ => number
  | 6, _ => quoted
  | 7, param => keyword (param.getD "")
  | _, _ => ws

theorem fits : Fits rules program := by
  intro id rule hrule param
  match id with
  | 0 | 1 | 2 | 3 | 4 | 5 | 6 | 7 | 8 =>
    cases hrule
    rfl

set_option maxRecDepth 100000 in
theorem isProgramOf_source : ∃ text, source = String.ofList text ∧
    isProgramOf text program = true :=
  ⟨_, rfl, by decide +kernel⟩

/-- The functions of the simple rules by name. -/
def functions : List (String × Matching Value) :=
  [("list", list), ("items", items), ("item", item), ("bang", bang), ("word", word),
    ("number", number), ("quoted", quoted), ("ws", ws)]

theorem functions_agree : ∃ parser, Generates source program parser ∧
    Agree functions parse program parser := by
  obtain ⟨text, hsource, hprogram⟩ := isProgramOf_source
  rw [hsource]
  exact exists_agree hprogram fits (by decide) (by decide) rfl

end Lists

/-- The parsers of the samples come to the same end as their grammars do when they are compiled
with the options that are set by default, rule by rule and at every offset of every text: the
functions that apply the combinators, and the code that is generated for the grammars. -/
theorem samples_agree :
    (∃ parser, Generates Lists.source Lists.program parser ∧
      Agree Lists.functions Lists.parse Lists.program parser) ∧
    (∃ parser, Generates Echoes.source Echoes.program parser ∧
      Agree Echoes.functions Echoes.parse Echoes.program parser) ∧
    ∃ parser, Generates Locals.source Locals.program parser ∧
      Agree Locals.functions Locals.parse Locals.program parser :=
  ⟨Lists.functions_agree, Echoes.functions_agree, Locals.functions_agree⟩

end Sample

end Peg
