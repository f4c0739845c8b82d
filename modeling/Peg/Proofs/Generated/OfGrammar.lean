/-
Peg/Proofs/Generated/OfGrammar.lean

The code of a generated parser is that of the program.

A grammar is compiled to a program and made into a parser by two recursions on
its patterns that know nothing of each other.  The one looks names up and
numbers rules, the other prefixes names and numbers regular expressions.  The
code they give is the same, pattern by pattern (`pattern_describes`), provided
that a function is declared only once.

So a generated parser does what the interpreter does with the program
(`generated_agrees`), for every grammar that leaves nothing to the host: its
rules declare no types, and the only mapper is the text.
-/
import Peg.Proofs.Generated.Agree
import Peg.Proofs.Program.Resolve
import Peg.Proofs.Program.Same

namespace Peg.Generated

open Host

/-- A grammar that a parser is generated for compiles, and the parser is made of its parts. -/
theorem ParserCode.exists_of_ofGrammar {grammar : Grammar} {options : CompileOptions}
    {parser : ParserCode} (h : ParserCode.ofGrammar grammar options = .ok parser) :
    ∃ program types rules, grammar.compile (codegenOptions options) = .ok program ∧
      rulesCode grammar types 0 grammar.rules = .ok rules ∧
      parser = {
        pastas := grammar.pastas.map (·.code)
        templateWhitespace := options.templateWhitespace
        dialect := options.dialect
        regexes := grammar.rules.flatMap regexesOfRule
        rules } := by
  obtain ⟨program, hprogram, h⟩ := bind_eq_ok_iff.1 h
  obtain ⟨-, -, h⟩ := bind_eq_ok_iff.1 h
  obtain ⟨types, -, h⟩ := bind_eq_ok_iff.1 h
  obtain ⟨rules, hrules, h⟩ := bind_eq_ok_iff.1 h
  cases h
  exact ⟨program, types, rules, hprogram, hrules, rfl⟩

/-! ### Declarations -/

/-- A grammar that leaves nothing to the host, with a function of its own for each rule. -/
structure SelfContained (grammar : Grammar) : Prop where
  untyped : ∀ rule ∈ grammar.rules, rule.type = none
  textual : ∀ rule ∈ grammar.rules, ∀ alternative ∈ rule.alternatives,
    ∀ mapper ∈ alternative.mapper, mapper.code = "text()"
  distinct : (grammar.rules.map fun rule => functionOf rule.head).Nodup

instance (grammar : Grammar) : Decidable (SelfContained grammar) :=
  decidable_of_iff ((∀ rule ∈ grammar.rules, rule.type = none) ∧
      (∀ rule ∈ grammar.rules, ∀ alternative ∈ rule.alternatives,
        ∀ mapper ∈ alternative.mapper, mapper.code = "text()") ∧
      (grammar.rules.map fun rule => functionOf rule.head).Nodup)
    ⟨fun h => ⟨h.1, h.2.1, h.2.2⟩, fun h => ⟨h.untyped, h.textual, h.distinct⟩⟩

/-- What a parser declares: the functions of the rules and the regular expressions, in order.  The
engine for these is that of the interpreter. -/
structure Declares (parser : ParserCode) (grammar : Grammar) : Prop where
  rules : parser.rules.map (fun code => (code.function, code.isTemplate)) =
    grammar.rules.map fun rule => (functionOf rule.head, rule.head.isTemplate)
  regexes : parser.regexes = grammar.rules.flatMap regexesOfRule
  dialect : parser.dialect = {}
  distinct : (grammar.rules.map fun rule => functionOf rule.head).Nodup

variable {grammar : Grammar} {parser : ParserCode} {program : Program}

/-- A function that is declared once has the number of its rule. -/
theorem Declares.number? (h : Declares parser grammar) {id : Nat} {rule : Rule}
    (hrule : grammar.rules[id]? = some rule) :
    parser.number? (functionOf rule.head) = some id := by
  have hfunctions := congrArg (List.map Prod.fst) h.rules
  rw [List.map_map, List.map_map] at hfunctions
  have hmap : parser.number? (functionOf rule.head) =
      (grammar.rules.map fun rule => functionOf rule.head).findIdx?
        (· == functionOf rule.head) := by
    refine Eq.trans ?_ (congrArg (List.findIdx? (· == functionOf rule.head)) hfunctions)
    rw [List.findIdx?_map]
    rfl
  obtain ⟨hid, rfl⟩ := List.getElem?_eq_some_iff.1 hrule
  rw [hmap, List.findIdx?_eq_some_iff_getElem]
  have hlength : id < (grammar.rules.map fun rule => functionOf rule.head).length := by
    rwa [List.length_map]
  refine ⟨hlength, by simp, fun index hindex hsame => ?_⟩
  have hdistinct := List.pairwise_iff_getElem.1 h.distinct index id (by omega) hlength hindex
  rw [List.getElem_map _, List.getElem_map _] at hdistinct
  rw [beq_iff_eq, List.getElem_map _] at hsame
  exact hdistinct hsame

/-- A parser starts with the function of the rule that comes first among the simple ones. -/
theorem Declares.entry? (h : Declares parser grammar) :
    (parser.entry?.map fun code => code.function) =
      (grammar.rules.find? fun rule => !rule.head.isTemplate).map fun rule =>
        functionOf rule.head := by
  have hfound := congrArg (List.find? fun entry => !entry.2) h.rules
  rw [List.find?_map, List.find?_map] at hfound
  have hfunction := congrArg (Option.map Prod.fst) hfound
  rw [Option.map_map, Option.map_map] at hfunction
  exact hfunction

/-- Regular expressions that are declared one after the other from a number on. -/
def Located (declared : List RegexCode) (first : Nat) (used : List RegexCode) : Prop :=
  used <+: declared.drop first

variable {declared used others : List RegexCode} {first : Nat}

theorem located_append (h : Located declared first (used ++ others)) :
    Located declared first used ∧ Located declared (first + used.length) others := by
  obtain ⟨rest, hrest⟩ := h
  refine ⟨⟨others ++ rest, by rw [← hrest, List.append_assoc]⟩, rest, ?_⟩
  rw [← List.drop_drop, ← hrest, List.append_assoc, List.drop_left]

theorem Located.getElem? {regex : RegexCode} (h : Located declared first [regex]) :
    declared[first]? = some regex := by
  obtain ⟨rest, hrest⟩ := h
  have hfirst := congrArg (·[0]?) hrest
  simpa [List.getElem?_drop] using hfirst.symm

/-! ### Patterns -/

variable {param : Option String}

/-- A template that is found by its name has the function that its instances call. -/
theorem Declares.template? (h : Declares parser grammar) {name : Option String} {id : Nat}
    (hid : grammar.template? name = some id) :
    parser.number? (templateFunction grammar name) = some id := by
  obtain ⟨hlt, -⟩ := List.findIdx?_eq_some_iff_getElem.1 hid
  have hrule := List.getElem?_eq_getElem hlt
  rw [templateFunction, hid, Option.bind_some, hrule]
  exact h.number? hrule

/-- So has a simple rule. -/
theorem Declares.simpleRule? (h : Declares parser grammar) {name : String} {id : Nat}
    (hid : grammar.simpleRule? name = some id) :
    parser.number? (Identifier.ofName name) = some id := by
  obtain ⟨hlt, hname, -⟩ := List.findIdx?_eq_some_iff_getElem.1 hid
  have hfunction := h.number? (List.getElem?_eq_getElem hlt)
  rcases hhead : grammar.rules[id].head with name' | ⟨name', param⟩
  · rw [hhead] at hname hfunction
    obtain rfl : name' = name := Option.some.inj (beq_iff_eq.1 hname)
    exact hfunction
  · rw [hhead] at hname
    cases hname

theorem name_describes (hdeclares : Declares parser grammar) {name : String} {span : Span}
    {matcher : Matcher} {depth first : Nat}
    (h : Resolver.resolveName ⟨grammar, {}⟩ param name span = .ok matcher) :
    (Context.pattern ⟨grammar, param⟩ depth first (.name name span)).describes parser depth matcher =
      true := by
  rw [Context.pattern]
  rcases Resolver.resolveName_cases h with ⟨hparam, rfl⟩ | ⟨hparam, id, hid, rfl⟩
  · rw [if_pos hparam]
    rfl
  · rw [if_neg hparam]
    exact beq_iff_eq.2 (hdeclares.simpleRule? hid)

theorem repeated_describes (repetition : Option Repetition) {depth : Nat} {code : MatcherCode}
    {matcher : Matcher} (h : code.describes parser depth matcher = true) :
    (Context.repeated repetition code).describes parser depth
      (Resolver.repeatMatcher repetition matcher) = true := by
  cases repetition with
  | none => exact h
  | some mode => exact Bool.and_eq_true_iff.2 ⟨beq_self_eq_true _, h⟩

theorem builtin_describes {context : Context} {function : String} {make : Matcher → Matcher}
    (h : Resolver.builtin? function = some make) {pattern : Pattern} {depth : Nat}
    {code : MatcherCode} {body : Matcher} (hbody : code.describes parser depth body = true) :
    (context.applied function pattern code).describes parser depth (make body) = true := by
  unfold Resolver.builtin? at h
  split at h <;> cases h <;> exact hbody

theorem applied_of_builtin? {context : Context} {function : String}
    (h : Resolver.builtin? function = none) (pattern : Pattern) (code : MatcherCode) :
    context.applied function pattern code =
      match pattern, context.grammar.template? (some function) with
      | .literal argument _, some _ =>
        .template (templateFunction context.grammar (some function)) argument
      | _, _ => .external (Identifier.ofName function) code := by
  unfold Context.applied
  split
  · cases h
  · cases h
  · cases h
  · cases h
  · rfl

mutual

/-- The code of a pattern is that of its matcher. -/
theorem pattern_describes (hdeclares : Declares parser grammar) {bound : List Nat} :
    ∀ {pattern : Pattern} {matcher : Matcher} {depth first : Nat},
    Resolver.resolvePattern ⟨grammar, {}⟩ param bound pattern = .ok matcher →
    Located parser.regexes first (regexesOf pattern) →
    (Context.pattern ⟨grammar, param⟩ depth first pattern).describes parser depth matcher = true
  | .literal _ _, _, _, _, h, _ => by
    cases h
    exact beq_self_eq_true _
  | .any _, _, _, _, h, _ => by
    cases h
    rfl
  | .regex source flags span, _, _, _, h, hlocated => by
    obtain ⟨expression, hexpression, rfl⟩ := Resolver.resolveRegex_cases h
    rw [Context.pattern, MatcherCode.describes, Bool.and_eq_true, beq_iff_eq, beq_iff_eq]
    refine ⟨?_, rfl⟩
    rw [ParserCode.regex, hdeclares.dialect, hlocated.getElem?, Option.bind_some]
    exact congrArg (Option.getD · _) hexpression
  | .name name span, _, _, _, h, _ => name_describes hdeclares h
  | .variable index span, _, _, _, h, _ => by
    obtain ⟨rfl, -⟩ := Resolver.resolveVariable_cases h
    exact beq_self_eq_true _
  | .template function body span, _, _, _, h, _ => by
    obtain ⟨id, hid, rfl⟩ := Resolver.resolveInstance_cases h
    rw [Context.pattern, MatcherCode.describes, Bool.and_eq_true, beq_iff_eq, beq_iff_eq]
    exact ⟨hdeclares.template? hid, rfl⟩
  | .apply function inner span, matcher, _, _, h, hlocated => by
    rw [Context.pattern]
    cases Resolver.applied_of_resolvePattern h with
    | builtin hmake hbody =>
      exact builtin_describes hmake (pattern_describes hdeclares hbody hlocated)
    | @template id argument _ hbuiltin hid =>
      have hid : grammar.template? (some function) = some id := hid
      rw [applied_of_builtin? hbuiltin, hid]
      exact Bool.and_eq_true_iff.2 ⟨beq_iff_eq.2 (hdeclares.template? hid), beq_self_eq_true _⟩
    | external hbuiltin htemplate htransformer hbody =>
      -- without transformers there is no other function
      cases htransformer
  | .group items span, _, _, _, h, hlocated => by
    obtain ⟨matchers, hmatchers, rfl⟩ := Resolver.resolveGroup_cases h
    obtain ⟨-, hlength⟩ := Resolver.resolveGroupItems_scoped hmatchers
    rw [Context.pattern, MatcherCode.describes, Bool.and_eq_true, Bool.and_eq_true]
    refine ⟨⟨beq_self_eq_true _, members_describe hdeclares hmatchers hlocated⟩, ?_⟩
    rw [Context.keptMembers, hlength]
    exact beq_self_eq_true _

theorem members_describe (hdeclares : Declares parser grammar) {outer : List Nat} :
    ∀ {items : List GroupItem} {matchers : List Matcher} {index depth first : Nat},
    Resolver.resolveGroupItems ⟨grammar, {}⟩ param outer index items = .ok matchers →
    Located parser.regexes first (regexesOfMembers items) →
    describeAll parser depth (Context.members ⟨grammar, param⟩ depth first items) matchers = true
  | [], _, _, _, _, h, _ => by
    cases h
    rfl
  | .mk _ pattern repetition _ :: items, _, _, _, _, h, hlocated => by
    rw [Resolver.resolveGroupItems] at h
    obtain ⟨matcher, hmatcher, h⟩ := bind_eq_ok_iff.1 h
    obtain ⟨matchers, hmatchers, h⟩ := bind_eq_ok_iff.1 h
    obtain ⟨body, hbody, hmatcher⟩ := bind_eq_ok_iff.1 hmatcher
    cases h
    cases hmatcher
    obtain ⟨hpattern, hothers⟩ := located_append hlocated
    rw [Context.members, describeAll, Bool.and_eq_true]
    exact ⟨repeated_describes repetition (pattern_describes hdeclares hbody hpattern),
      members_describe hdeclares hmatchers hothers⟩

end

/-! ### Rules -/

/-- The items of an alternative are the members of a group. -/
theorem items_eq_members (context : Context) (items : List Item) :
    ∀ first, context.items first items =
      context.members 0 first (items.map (GroupItem.ofItem false)) := by
  induction items with
  | nil => exact fun _ => rfl
  | cons item items ih =>
    intro first
    rw [Context.items, ih]
    rfl

theorem regexesOfItems_eq_members (items : List Item) :
    regexesOfItems items = regexesOfMembers (items.map (GroupItem.ofItem false)) := by
  induction items with
  | nil => rfl
  | cons item items ih =>
    rw [regexesOfItems, List.flatMap_cons, ← regexesOfItems, ih]
    rfl

/-- The interpreter reads `text()` as the text of the match. -/
theorem parse_text : MapperExpr.parse "text()" = .ok .text :=
  MapperExpr.eq_ok_of_same (by decide +kernel)

/-- The host reads it as a call that gives the same. -/
theorem matchedText_text :
    (expression? (substituteMapper "text()").toList).all isMatchedText = true := by
  decide +kernel

theorem expression?_of_mapperCode {mapper : MapperCode} {expression : Tokens}
    (h : mapperCode mapper = .ok expression) :
    expression? (substituteMapper mapper.code).toList = some expression := by
  rw [mapperCode] at h
  split at h
  · rename_i tokens htokens
    cases h
    exact htokens
  · cases h

theorem alternative_describes (hdeclares : Declares parser grammar) {function : Identifier}
    {alternative : Alternative} {compiled : CompiledAlternative}
    (htextual : ∀ mapper ∈ alternative.mapper, mapper.code = "text()")
    (hcompiled : Resolver.resolveAlternative ⟨grammar, {}⟩ param alternative = .ok compiled)
    {result : Option Tokens} (hresult : alternative.mapper.mapM mapperCode = .ok result)
    (hlocated : Located parser.regexes first (regexesOfAlternative alternative)) :
    AlternativeCode.describes parser
      ⟨function, Context.items ⟨grammar, param⟩ first alternative.items, result⟩ compiled =
        true := by
  obtain ⟨items, hitems, hmapper⟩ := bind_eq_ok_iff.1 hcompiled
  rw [regexesOfAlternative, regexesOfItems_eq_members] at hlocated
  have hmembers : describeAll parser 0
      (Context.members ⟨grammar, param⟩ 0 first
        (alternative.items.map (GroupItem.ofItem false))) items = true :=
    members_describe hdeclares hitems hlocated
  rw [← items_eq_members] at hmembers
  obtain ⟨sources, mapper, span⟩ := alternative
  rcases mapper with - | mapper
  · cases hmapper
    cases hresult
    exact Bool.and_eq_true_iff.2 ⟨hmembers, rfl⟩
  · have htext := htextual mapper rfl
    obtain ⟨expression, hexpression, hresult⟩ := bind_eq_ok_iff.1 hresult
    cases hresult
    obtain ⟨expr, hexpr, hmapper⟩ := bind_eq_ok_iff.1 hmapper
    cases hmapper
    have hread := (Resolver.resolveMapper_eq_ok_iff.1 hexpr).1
    rw [htext, parse_text] at hread
    cases hread
    have hmatched := matchedText_text
    rw [← htext, expression?_of_mapperCode hexpression, Option.all_some] at hmatched
    rw [AlternativeCode.describes, Bool.and_eq_true]
    exact ⟨hmembers, hmatched⟩

theorem alternatives_describe (hdeclares : Declares parser grammar) {function : Identifier}
    {alternatives : List Alternative} {compiled : List CompiledAlternative}
    (hcompiled : List.Forall₂ (fun alternative compiled =>
      Resolver.resolveAlternative ⟨grammar, {}⟩ param alternative = .ok compiled)
      alternatives compiled)
    (htextual : ∀ alternative ∈ alternatives, ∀ mapper ∈ alternative.mapper,
      mapper.code = "text()") :
    ∀ {number first : Nat} {codes : List AlternativeCode},
      alternativesCode ⟨grammar, param⟩ function number first alternatives = .ok codes →
      Located parser.regexes first (alternatives.flatMap regexesOfAlternative) →
      List.Forall₂ (fun compiled code => code.describes parser compiled = true) compiled codes := by
  induction hcompiled with
  | nil =>
    intro number first codes hcodes _
    cases hcodes
    exact .nil
  | cons hfirst _ ih =>
    intro number first codes hcodes hlocated
    obtain ⟨result, hresult, hcodes⟩ := bind_eq_ok_iff.1 hcodes
    obtain ⟨others, hothers, hcodes⟩ := bind_eq_ok_iff.1 hcodes
    cases hcodes
    rw [List.flatMap_cons] at hlocated
    obtain ⟨hhere, hthere⟩ := located_append hlocated
    obtain ⟨htext, htexts⟩ := List.forall_mem_cons.1 htextual
    exact .cons (alternative_describes hdeclares htext hfirst hresult hhere)
      (ih htexts hothers hthere)

theorem rules_describe (hdeclares : Declares parser grammar)
    (hblanks : parser.templateWhitespace = true) {types : List (Identifier × Tokens)}
    {rules : List Rule} {compiled : List CompiledRule}
    (hcompiled : List.Forall₂ (fun rule compiled =>
      Resolver.resolveRule ⟨grammar, {}⟩ rule = .ok compiled) rules compiled)
    (huntyped : ∀ rule ∈ rules, rule.type = none)
    (htextual : ∀ rule ∈ rules, ∀ alternative ∈ rule.alternatives, ∀ mapper ∈ alternative.mapper,
      mapper.code = "text()") :
    ∀ {first : Nat} {codes : List RuleCode}, rulesCode grammar types first rules = .ok codes →
      Located parser.regexes first (rules.flatMap regexesOfRule) →
      List.Forall₂ (fun compiled code => code.Describes parser compiled) compiled codes := by
  induction hcompiled with
  | nil =>
    intro first codes hcodes _
    cases hcodes
    exact .nil
  | cons hfirst _ ih =>
    intro first codes hcodes hlocated
    obtain ⟨alternatives, halternatives, hcodes⟩ := bind_eq_ok_iff.1 hcodes
    obtain ⟨others, hothers, hcodes⟩ := bind_eq_ok_iff.1 hcodes
    cases hcodes
    rw [List.flatMap_cons] at hlocated
    obtain ⟨hhere, hthere⟩ := located_append hlocated
    obtain ⟨htype, htypes⟩ := List.forall_mem_cons.1 huntyped
    obtain ⟨htext, htexts⟩ := List.forall_mem_cons.1 htextual
    obtain ⟨resolved, hresolved, rfl⟩ := Resolver.resolveRule_eq_ok_iff.1 hfirst
    refine .cons ⟨?_, ?_, ?_⟩ (ih htypes htexts hothers hthere)
    · rw [htype]
      rfl
    · rw [hblanks]
    · exact alternatives_describe hdeclares hresolved htext halternatives hhere

/-! ### Parsers -/

theorem rulesCode_rules {types : List (Identifier × Tokens)} {rules : List Rule} :
    ∀ {first : Nat} {codes : List RuleCode}, rulesCode grammar types first rules = .ok codes →
      codes.map (fun code => (code.function, code.isTemplate)) =
        rules.map fun rule => (functionOf rule.head, rule.head.isTemplate) := by
  induction rules with
  | nil =>
    intro first codes hcodes
    cases hcodes
    rfl
  | cons rule rules ih =>
    intro first codes hcodes
    obtain ⟨alternatives, -, hcodes⟩ := bind_eq_ok_iff.1 hcodes
    obtain ⟨others, hothers, hcodes⟩ := bind_eq_ok_iff.1 hcodes
    cases hcodes
    rw [List.map_cons, List.map_cons, ih hothers]

/-- The code of a generated parser is that of the program, and a function has the number of its
rule. -/
theorem ofGrammar_describes (hcontained : SelfContained grammar)
    (hprogram : grammar.compile {} = .ok program)
    (hparser : ParserCode.ofGrammar grammar .forCodegen = .ok parser) :
    Declares parser grammar ∧ parser.Describes program := by
  obtain ⟨-, hrules, -⟩ := Grammar.compile_eq_ok_iff.1 hprogram
  obtain ⟨-, types, rules, -, hcodes, rfl⟩ := ParserCode.exists_of_ofGrammar hparser
  have hdeclares : Declares ⟨grammar.pastas.map (·.code), true, {},
      grammar.rules.flatMap regexesOfRule, rules⟩ grammar :=
    ⟨rulesCode_rules hcodes, rfl, rfl, hcontained.distinct⟩
  refine ⟨hdeclares, ?_⟩
  refine rules_describe hdeclares rfl hrules hcontained.untyped hcontained.textual hcodes ?_
  exact List.prefix_refl _

/-- A generated parser does what the interpreter does with the program, rule by rule. -/
theorem generated_agrees {ν : Type} (hcontained : SelfContained grammar)
    (hprogram : grammar.compile {} = .ok program)
    (hparser : ParserCode.ofGrammar grammar .forCodegen = .ok parser)
    (hsteady : program.isSteady = true) (host : HostCode ν) {id : Nat} {rule : Rule}
    (hrule : grammar.rules[id]? = some rule) (fuel : Nat) (param : Option String)
    (input : List Char) (start : Nat) :
    (parser.call host fuel (functionOf rule.head) param input start).outcome? =
      (program.call fuel id param input start).outcome?.map (Outcome.map .value) := by
  obtain ⟨hdeclares, hdescribes⟩ := ofGrammar_describes hcontained hprogram hparser
  exact call_agrees hdescribes hsteady host (hdeclares.number? hrule) fuel param input start

/-- A compiled rule has the head of the rule it is made of. -/
theorem exists_rule_of_compile (hprogram : grammar.compile {} = .ok program) {id : Nat}
    {compiled : CompiledRule} (hcompiled : program.rules[id]? = some compiled) :
    ∃ rule, grammar.rules[id]? = some rule ∧ rule.head = compiled.head := by
  have hheads : program.rules.map (·.head) = grammar.rules.map (·.head) :=
    Grammar.heads_compile hprogram
  have hat := congrArg (·[id]?) hheads
  rw [List.getElem?_map, List.getElem?_map, hcompiled] at hat
  exact Option.map_eq_some_iff.1 hat.symm

/-- It starts with the rule that the interpreter starts with. -/
theorem generated_parse_agrees {ν : Type} (hcontained : SelfContained grammar)
    (hprogram : grammar.compile {} = .ok program)
    (hparser : ParserCode.ofGrammar grammar .forCodegen = .ok parser)
    (hsteady : program.isSteady = true) (host : HostCode ν) {id : Nat}
    (hentry : program.entry? = some id) (fuel : Nat) (input : List Char) :
    (parser.parse host fuel input).outcome? =
      (program.call fuel id none input 0).outcome?.map (Outcome.map .value) := by
  obtain ⟨hdeclares, -⟩ := ofGrammar_describes hcontained hprogram hparser
  have hheads : program.rules.map (·.head) = grammar.rules.map (·.head) :=
    Grammar.heads_compile hprogram
  have hindex : grammar.rules.findIdx? (fun rule => !rule.head.isTemplate) = some id := by
    rw [← hentry]
    have hindexes := congrArg (List.findIdx? fun head => !head.isTemplate) hheads
    rw [List.findIdx?_map, List.findIdx?_map] at hindexes
    exact hindexes.symm
  obtain ⟨hid, hsimple, hfirst⟩ := List.findIdx?_eq_some_iff_getElem.1 hindex
  have hfound : grammar.rules.find? (fun rule => !rule.head.isTemplate) =
      some grammar.rules[id] := by
    rw [List.find?_eq_some_iff_getElem]
    exact ⟨hsimple, id, hid, rfl, fun index hless => by simpa using hfirst index hless⟩
  have hstart := hdeclares.entry?
  rw [hfound, Option.map_some, Option.map_eq_some_iff] at hstart
  obtain ⟨code, hcode, hfunction⟩ := hstart
  rw [ParserCode.parse, hcode]
  dsimp only
  rw [hfunction]
  exact generated_agrees hcontained hprogram hparser hsteady host (List.getElem?_eq_getElem hid) fuel
    none input 0

end Peg.Generated
