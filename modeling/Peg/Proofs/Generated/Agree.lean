/-
Peg/Proofs/Generated/Agree.lean

Generated parsers agree with programs.

Whether code is that of a program can be checked without running either:
`ParserCode.Describes` compares the two part by part.  A function is called by
its name and a rule by its number, a regular expression is declared in one
place and used in another, and a variable names the item it belongs to.

Where the check succeeds, the code does what the program does, fuel for fuel
(`call_agrees`).  The values on the way are different: the code has texts,
options, vectors and tuples, and makes general values of them at the end of a
rule or where a variable is matched again.  What the two have in common is the
general value.
-/
import Peg.Generated.Run
import Peg.Proofs.Program.Fallback
import Peg.Proofs.Program.Layered
import Peg.Proofs.Run.Alike
import Peg.Proofs.Value.Bounds
import Peg.Proofs.Value.Spans

namespace Peg

open Text

/-- The elements that are kept, found by their indexes. -/
theorem filterMap_project_range {α : Type} (values : List α) (important : List Nat) :
    (project (List.range values.length) important).filterMap (values[·]?) =
      project values important := by
  have hindexes : List.range values.length = values.zipIdx.map Prod.snd := by
    rw [List.zipIdx_map_snd, List.range_eq_range']
  have hvalues : project values important = (project values.zipIdx important).map Prod.fst := by
    rw [← project_map, List.zipIdx_map_fst]
  rw [hindexes, project_map, hvalues, List.filterMap_map, ← List.filterMap_eq_map]
  refine List.filterMap_congr fun entry hentry => ?_
  exact List.mem_zipIdx_iff_getElem?.1 (mem_of_mem_project hentry)

namespace Generated

variable {ν : Type} {host : HostCode ν}

/-! ### Checking code -/

/-- The number of the rule with a function. -/
def ParserCode.number? (parser : ParserCode) (function : Host.Identifier) : Option Nat :=
  parser.rules.findIdx? (·.function == function)

mutual

/-- Whether code is that of a matcher, given how deep in groups it is. -/
def MatcherCode.describes (parser : ParserCode) (depth : Nat) : MatcherCode → Matcher → Bool
  | .literal string, .literal other => string == other
  | .regex number description, .regex expression other =>
    parser.regex number == expression && description == other
  | .any, .any => true
  | .param, .param => true
  | .rule function, .rule id => parser.number? function == some id
  | .variable place, .variable index => place == ⟨depth, index⟩
  | .template function argument, .template id other =>
    parser.number? function == some id && argument == other
  | .negative code, .negative inner => code.describes parser depth inner
  | .look code, .look inner => code.describes parser depth inner
  | .attempt code, .attempt inner => code.describes parser depth inner
  | .backtrack code, .backtrack inner => code.describes parser depth inner
  | .group own codes kept, .group items important =>
    own == depth + 1 && describeAll parser (depth + 1) codes items &&
      kept == project (List.range items.length) important
  | .repeated mode code, .repeated inner repetition =>
    mode == repetition && code.describes parser depth inner
  | _, _ => false

/-- Whether several codes are those of several matchers. -/
def describeAll (parser : ParserCode) (depth : Nat) : List MatcherCode → List Matcher → Bool
  | [], [] => true
  | code :: codes, item :: items =>
    code.describes parser depth item && describeAll parser depth codes items
  | _, _ => false

end

theorem describeAll_iff {parser : ParserCode} {depth : Nat} {codes : List MatcherCode}
    {items : List Matcher} :
    describeAll parser depth codes items = true ↔
      List.Forall₂ (fun item code => code.describes parser depth item = true) items codes := by
  induction codes generalizing items with
  | nil => cases items <;> simp [describeAll]
  | cons code codes ih => cases items <;> simp [describeAll, ih]

/-- An alternative and its code; the only mapper that is known is the text. -/
def AlternativeCode.describes (parser : ParserCode) (code : AlternativeCode)
    (alternative : CompiledAlternative) : Bool :=
  describeAll parser 0 code.items alternative.items &&
    match code.result, alternative.mapper with
    | none, none => true
    | some expression, some .text => isMatchedText expression
    | _, _ => false

/-- A rule without a declared type, and its code. -/
structure RuleCode.Describes (parser : ParserCode) (code : RuleCode) (rule : CompiledRule) :
    Prop where
  isUntyped : code.isUntyped = true
  skipsBlank : rule.skipsBlank = (code.isTemplate && parser.templateWhitespace)
  alternatives : List.Forall₂ (fun alternative code => code.describes parser alternative = true)
    rule.alternatives code.alternatives

instance (parser : ParserCode) (code : RuleCode) (rule : CompiledRule) :
    Decidable (code.Describes parser rule) :=
  decidable_of_iff (code.isUntyped = true ∧
      rule.skipsBlank = (code.isTemplate && parser.templateWhitespace) ∧
      List.Forall₂ (fun alternative code => code.describes parser alternative = true)
        rule.alternatives code.alternatives)
    ⟨fun h => ⟨h.1, h.2.1, h.2.2⟩, fun h => ⟨h.isUntyped, h.skipsBlank, h.alternatives⟩⟩

/-- A program and its code, rule by rule. -/
def ParserCode.Describes (parser : ParserCode) (program : Program) : Prop :=
  List.Forall₂ (fun rule (code : RuleCode) => code.Describes parser rule) program.rules parser.rules

instance (parser : ParserCode) (program : Program) : Decidable (parser.Describes program) :=
  inferInstanceAs (Decidable (List.Forall₂ _ program.rules parser.rules))

/-! ### Values -/

namespace HostValue

theorem toValues_eq_map (values : List (HostValue ν)) :
    toValues host values = values.map (toValue host) := by
  induction values with
  | nil => rfl
  | cons value values ih => rw [toValues, ih, List.map_cons]

theorem toValue_ofItems (values : List (HostValue ν)) :
    (ofItems values).toValue host = .ofItems (values.map (toValue host)) := by
  rcases values with - | ⟨value, - | ⟨next, values⟩⟩
  · rfl
  · rfl
  · exact congrArg Value.tuple (toValues_eq_map _)

end HostValue

/-- A value of the code stands for a general one. -/
abbrev Stands (host : HostCode ν) (value : Value) (inner : HostValue ν) : Prop :=
  inner.toValue host = value

theorem map_of_stand {values : List Value} {inners : List (HostValue ν)}
    (h : List.Forall₂ (Stands host) values inners) : inners.map (·.toValue host) = values :=
  map_eq_of_forall₂ h.flip

theorem stands_vector {values : List Value} {inners : List (HostValue ν)}
    (h : List.Forall₂ (Stands host) values inners) :
    Stands host (.list values) (.vector inners) := by
  rw [Stands, HostValue.toValue, HostValue.toValues_eq_map, map_of_stand h]

/-- A primitive matcher gives a text. -/
theorem text_agrees {outcome outcome' : Outcome String}
    (h : Run.Alike Eq 0 (Run.primitive outcome) (Run.primitive outcome')) :
    Run.Alike (Stands host) 0 (Run.primitive (outcome.map Value.str))
      (Run.primitive (outcome'.map HostValue.text)) := by
  rw [Run.primitive_map, Run.primitive_map]
  refine h.mapValue fun _ _ htext => ?_
  rw [htext]
  rfl

/-- A variable stands for what an item has matched. -/
abbrev StandsFor (host : HostCode ν) (capture : Capture) (entry : Local ν) : Prop :=
  Stands host capture.value entry.value

theorem values_of_standFor {captures : List Capture} {locals : List (Local ν)}
    (h : List.Forall₂ (StandsFor host) captures locals) :
    locals.map (fun entry => entry.value.toValue host) = captures.map (·.value) := by
  induction h with
  | nil => rfl
  | cons hvalue _ ih => rw [List.map_cons, List.map_cons, hvalue, ih]

/-- The variables of a sequence can be seen at its depth. -/
def Sees (host : HostCode ν) (depth : Nat) (captures : List Capture)
    (environment : Environment ν) : Prop :=
  ∀ index, (environment ⟨depth, index⟩).map (·.toValue host) =
    (captures[index]?).map (·.value)

theorem sees_bind {captures : List Capture} {locals : List (Local ν)}
    (h : List.Forall₂ (StandsFor host) captures locals) (outer : Environment ν) (depth : Nat) :
    Sees host depth captures (outer.bind depth locals) := by
  intro index
  have hvalues := congrArg (·[index]?) (values_of_standFor h)
  rw [List.getElem?_map, List.getElem?_map] at hvalues
  rw [Environment.bind, if_pos rfl, Option.map_map]
  exact hvalues

/-! ### One step -/

variable {parser : ParserCode} {program : Program} {step : Program.Step} {code : CodeStep ν}
variable {param : Option String} {input : List Char} {depth : Nat}

/-- Code does what a matcher does, wherever it sees the variables it may refer to. -/
def StepAgrees (host : HostCode ν) (step : Program.Step) (code : CodeStep ν)
    (param : Option String) (input : List Char) (depth : Nat) (item : Matcher)
    (itemCode : MatcherCode) : Prop :=
  ∀ captures environment, Sees host depth captures environment → ∀ start,
    Run.Alike (Stands host) 0 (step ⟨param, captures⟩ item input start)
      (code environment param itemCode input (0 + start))

theorem runItems_agrees {items : List Matcher} {codes : List MatcherCode}
    (h : List.Forall₂ (StepAgrees host step code param input depth) items codes)
    (outer : Environment ν) (start : Nat) :
    Run.Alike (List.Forall₂ (StandsFor host)) 0 (Program.matchItems step items param input start)
      (runItems code depth codes outer param input (0 + start)) := by
  refine Combinator.sequence_alike ?_ .nil start
  rw [List.forall₂_map_left_iff, List.forall₂_map_right_iff]
  refine h.imp fun item itemCode hitem captures locals hlocals start => ?_
  refine (hitem captures _ (sees_bind hlocals outer depth) start).andThen
    fun value inner stop hvalue => ?_
  exact .success _ _ stop hvalue

/-- The code of a group names the items that are kept, and the program their indexes. -/
theorem group_agrees {items : List Matcher} {codes : List MatcherCode}
    (h : List.Forall₂ (StepAgrees host step code param input depth) items codes)
    (important : List Nat) (outer : Environment ν) (start : Nat) :
    Run.Alike (Stands host) 0
      ((Program.matchItems step items param input start).mapValue (Program.groupValue important))
      ((runItems code depth codes outer param input (0 + start)).mapValue fun locals =>
        .ofItems ((project (List.range items.length) important).filterMap fun index =>
          (locals[index]?).map (·.value))) := by
  rw [← Run.andThen_done, ← Run.andThen_done]
  refine (runItems_agrees h outer start).andThen_ensures (Program.sequence_length items [])
    fun captures locals stop hlocals hlength => .success _ _ stop ?_
  have hvalues : ∀ index : Nat, ((locals[index]?).map Local.value).map (HostValue.toValue host) =
      (captures.map Capture.value)[index]? := by
    intro index
    rw [← values_of_standFor hlocals, List.getElem?_map, Option.map_map]
    rfl
  have hitems : items.length = (captures.map Capture.value).length := by
    rw [List.length_map, hlength, List.length_nil, Nat.zero_add]
  rw [Stands, HostValue.toValue_ofItems, List.map_filterMap]
  simp only [hvalues]
  -- as many variables as items, so the indexes that are kept are those of the captures
  rw [hitems, filterMap_project_range]
  rfl

/-- The function of a rule gives general values. -/
abbrev IsGeneral (value : Value) (inner : HostValue ν) : Prop :=
  inner = .value value

/-- An alternative goes forward, so its text is the one between its ends. -/
theorem alternative_agrees {alternative : CompiledAlternative} {alternativeCode : AlternativeCode}
    (hdescribes : alternativeCode.describes parser alternative = true)
    (hitems : List.Forall₂ (StepAgrees host step code param input 0) alternative.items
      alternativeCode.items)
    (hsteady : ∀ item ∈ alternative.items, ∀ captures start,
      Program.Steady input start (step ⟨param, captures⟩ item input start)) (start : Nat) :
    Run.Alike IsGeneral 0 (Program.matchAlternative step alternative param input start)
      (alternativeCode.run host code true param input (0 + start)) := by
  refine (runItems_agrees hitems (fun _ => none) start).andThen_ensures
    (Program.matchItems_steady hsteady start) fun captures locals stop hlocals hstop =>
      .success _ _ stop ?_
  obtain ⟨items, mapper⟩ := alternative
  obtain ⟨function, codes, result⟩ := alternativeCode
  rw [AlternativeCode.describes, Bool.and_eq_true] at hdescribes
  have hresult := hdescribes.2
  rcases result with - | expression
  · rcases mapper with - | mapper
    · exact congrArg (fun values => HostValue.value (.ofItems values)) (values_of_standFor hlocals)
    · cases hresult
  · rcases mapper with - | (_ | _ | _ | _ | _ | _ | _ | _ | _ | _)
    case some.text =>
      simp only [AlternativeCode.resultIn, HostCode.evaluateIn]
      rw [if_pos hresult, MapperExpr.evaluate_text hstop, Nat.zero_add, Nat.zero_add]
      rfl
    all_goals cases hresult

theorem rule_agrees {rule : CompiledRule} {ruleCode : RuleCode} {id : Nat}
    (hrule : program.rules[id]? = some rule) (hdescribes : ruleCode.Describes parser rule)
    (hitems : ∀ {items : List Matcher} {codes : List MatcherCode},
      describeAll parser 0 codes items = true →
      List.Forall₂ (StepAgrees host step code param input 0) items codes)
    (hsteady : ∀ alternative ∈ rule.alternatives, ∀ item ∈ alternative.items, ∀ captures start,
      Program.Steady input start (step ⟨param, captures⟩ item input start)) (start : Nat) :
    Run.Alike IsGeneral 0 (program.matchRule step id param input start)
      (ruleCode.run host code parser.templateWhitespace param input (0 + start)) := by
  have hchoice : Run.Alike IsGeneral 0
      (Combinator.choice (rule.alternatives.map fun alternative =>
        Program.matchAlternative step alternative param) input start)
      (Combinator.choice (ruleCode.alternatives.map fun alternative =>
        alternative.run host code ruleCode.isUntyped param) input (0 + start)) := by
    refine Combinator.choice_alike ?_
    rw [List.forall₂_map_left_iff, List.forall₂_map_right_iff, hdescribes.isUntyped]
    refine ((List.forall₂_and_left _ _).2 ⟨hsteady, hdescribes.alternatives⟩).imp
      fun alternative alternativeCode h => ?_
    exact alternative_agrees h.2 (hitems (Bool.and_eq_true_iff.1 h.2).1) h.1 start
  have hrun := Program.matchRule_alike hrule hchoice
  rw [RuleCode.run]
  rw [hdescribes.skipsBlank] at hrun
  exact hrun

/-! ### Whole runs -/

/-- A function is that of the rule with its number. -/
theorem exists_of_number? (hdescribes : parser.Describes program) {function : Host.Identifier}
    {id : Nat} (hid : parser.number? function = some id) :
    ∃ rule ruleCode, program.rules[id]? = some rule ∧ ruleCode.Describes parser rule ∧
      parser.rules.find? (·.function == function) = some ruleCode := by
  obtain ⟨hlt, hfound, hfirst⟩ := List.findIdx?_eq_some_iff_getElem.1 hid
  obtain ⟨hlength, hrules⟩ := List.forall₂_iff_get.1 hdescribes
  have hprogram : id < program.rules.length := hlength ▸ hlt
  refine ⟨_, _, List.getElem?_eq_getElem hprogram, hrules id hprogram hlt, ?_⟩
  rw [List.find?_eq_some_iff_getElem]
  exact ⟨hfound, id, hlt, rfl, fun index hindex => by simpa using hfirst index hindex⟩

/-- A rule is called by the name of its function. -/
theorem callRule_agrees (hdescribes : parser.Describes program) (hsteady : program.isSteady = true)
    {fuel : Nat}
    (hmatcher : ∀ {m : Matcher} {itemCode : MatcherCode}, itemCode.describes parser 0 m = true →
      StepAgrees host (program.matcher fuel) (parser.matcher host fuel) param input 0 m itemCode)
    {function : Host.Identifier} {id : Nat} (hid : parser.number? function = some id)
    (start : Nat) :
    Run.Alike IsGeneral 0 (program.matchRule (program.matcher fuel) id param input start)
      (parser.callRule host (parser.matcher host fuel) function param input (0 + start)) := by
  obtain ⟨rule, ruleCode, hrule, hcode, hfound⟩ := exists_of_number? hdescribes hid
  simp only [ParserCode.callRule, hfound]
  refine rule_agrees hrule hcode (fun h => (describeAll_iff.1 h).imp fun _ _ => hmatcher)
    (fun alternative halternative item hitem captures start => ?_) start
  exact Program.matcher_steady hsteady fuel _
    (Program.isSteady_of_mem hsteady hrule halternative hitem) input start

/-- Described code does what its matcher does. -/
theorem matcher_agrees (hdescribes : parser.Describes program) (hsteady : program.isSteady = true)
    (fuel : Nat) {m : Matcher} {itemCode : MatcherCode}
    (h : itemCode.describes parser depth m = true) :
    StepAgrees host (program.matcher fuel) (parser.matcher host fuel) param input depth m
      itemCode := by
  induction fuel generalizing depth m itemCode param input with
  | zero => exact fun _ _ _ _ => .cutShort
  | succ fuel ih =>
    intro captures environment hsees start
    have hcall : ∀ {function : Host.Identifier} {id : Nat} {param : Option String},
        parser.number? function = some id →
        Run.Alike (Stands host) 0
          (program.matchRule (program.matcher fuel) id param input start)
          (parser.callRule host (parser.matcher host fuel) function param input (0 + start)) := by
      intro function id param hid
      refine (callRule_agrees hdescribes hsteady (fun h => ih h) hid start).mono
        fun value inner hvalue => ?_
      rw [hvalue]
      rfl
    have hinner : ∀ {inner : Matcher} {code : MatcherCode}, code.describes parser depth inner = true →
        ∀ start, Run.Alike (Stands host) 0 (program.matcher fuel ⟨param, captures⟩ inner input start)
          (parser.matcher host fuel environment param code input (0 + start)) :=
      fun h start => ih h captures environment hsees start
    cases m with
    | literal string =>
      cases itemCode with
      | literal other =>
        obtain rfl : other = string := beq_iff_eq.1 h
        exact text_agrees (Primitive.literal_alike (.self input) _ start)
      | _ => cases h
    | regex expression description =>
      cases itemCode with
      | regex number other =>
        rw [MatcherCode.describes, Bool.and_eq_true, beq_iff_eq, beq_iff_eq] at h
        obtain ⟨rfl, rfl⟩ := h
        exact text_agrees (Primitive.regex_alike (.self input) _ _ start)
      | _ => cases h
    | any =>
      cases itemCode with
      | any => exact text_agrees (Primitive.anyChar_alike (.self input) start)
      | _ => cases h
    | rule id =>
      cases itemCode with
      | rule function => exact hcall (beq_iff_eq.1 h)
      | _ => cases h
    | param =>
      cases itemCode with
      | param => exact text_agrees (Primitive.literal_alike (.self input) _ start)
      | _ => cases h
    | «variable» index =>
      cases itemCode with
      | «variable» place =>
        obtain rfl : place = ⟨depth, index⟩ := beq_iff_eq.1 h
        have htext := congrArg (Option.map Value.text) (hsees index)
        rw [Option.map_map, Option.map_map] at htext
        simp only [Program.matcher, ParserCode.matcher, Scope.textOf]
        exact htext ▸ text_agrees (Primitive.literal_alike (.self input) _ start)
      | _ => cases h
    | template id argument =>
      cases itemCode with
      | template function other =>
        rw [MatcherCode.describes, Bool.and_eq_true, beq_iff_eq, beq_iff_eq] at h
        obtain ⟨hid, rfl⟩ := h
        exact hcall hid
      | _ => cases h
    | negative inner =>
      cases itemCode with
      | negative code =>
        replace h : code.describes parser depth inner = true := h
        refine (Combinator.negative_alike (.self input) (hinner h start)).mapValue
          fun text _ htext => ?_
        rw [← htext]
        rfl
      | _ => cases h
    | look inner =>
      cases itemCode with
      | look code =>
        replace h : code.describes parser depth inner = true := h
        exact Combinator.look_alike (hinner h start)
      | _ => cases h
    | attempt inner =>
      cases itemCode with
      | attempt code =>
        replace h : code.describes parser depth inner = true := h
        exact Combinator.attempt_alike (hinner h start)
      | _ => cases h
    | backtrack inner =>
      cases itemCode with
      | backtrack code =>
        replace h : code.describes parser depth inner = true := h
        rw [Nat.zero_add]
        exact Combinator.backtrack_alike fun passed _ => ih h captures environment hsees 0
      | _ => cases h
    | external name transformer inner => cases itemCode <;> cases h
    | group items important =>
      cases itemCode with
      | group own codes kept =>
        -- a variable inside a group is one of the group, one level deeper
        rw [MatcherCode.describes, Bool.and_eq_true, Bool.and_eq_true, beq_iff_eq, beq_iff_eq] at h
        obtain ⟨⟨rfl, hcodes⟩, rfl⟩ := h
        exact group_agrees ((describeAll_iff.1 hcodes).imp fun _ _ h => ih h) important environment
          start
      | _ => cases h
    | repeated inner repetition =>
      cases itemCode with
      | repeated mode code =>
        rw [MatcherCode.describes, Bool.and_eq_true, beq_iff_eq] at h
        obtain ⟨rfl, h⟩ := h
        have hbody := hinner h
        cases mode with
        | optional =>
          refine (Combinator.optional_alike (hbody start)).mapValue fun value inner h => ?_
          cases h with
          | none => rfl
          | some h => exact h
        | any =>
          exact (Combinator.many_alike hbody fuel start).mapValue fun _ _ => stands_vector
        | oneOrMore =>
          exact (Combinator.many1_alike hbody fuel start).mapValue fun _ _ => stands_vector
      | _ => cases h

/-- The function of a rule ends as the rule does, with a general value. -/
theorem call_agrees (hdescribes : parser.Describes program) (hsteady : program.isSteady = true)
    (host : HostCode ν) {function : Host.Identifier} {id : Nat}
    (hid : parser.number? function = some id) (fuel : Nat) (param : Option String)
    (input : List Char) (start : Nat) :
    (parser.call host fuel function param input start).outcome? =
      (program.call fuel id param input start).outcome?.map (Outcome.map .value) := by
  have hrun : Run.Alike IsGeneral 0 (program.call fuel id param input start)
      (parser.call host fuel function param input (0 + start)) :=
    callRule_agrees hdescribes hsteady (fun h => matcher_agrees hdescribes hsteady fuel h) hid start
  rw [Nat.zero_add] at hrun
  exact hrun.outcome_map

end Generated

end Peg
