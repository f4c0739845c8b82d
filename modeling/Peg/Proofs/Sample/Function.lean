/-
Peg/Proofs/Sample/Function.lean

Programs as functions.

Given a function for each rule, a program says what these functions should be:
`ofRule` puts the combinators together as the rule does.  Functions fit a
program when they are what it makes of them.

Functions that fit a program without recursion agree with the interpreter, at
every offset of every text (`call_function`).  The difference is in the fuel.
The interpreter shares one amount among all rules, and a function gives each
of its repetitions enough for the text it is applied to.
-/
import Peg.Proofs.Program.Layered
import Peg.Proofs.Run.Alike
import Peg.Sample.Basic

namespace Peg

open Text

namespace Sample

/-! ### Functions for matchers -/

/-- A function for each rule, which is given the parameter if the rule is a template. -/
abbrev Rules := Nat → Option String → Matching Value

mutual

/-- The function for a matcher, given the values of the earlier items. -/
def ofMatcher (rules : Rules) (param : Option String) : Matcher → List Value → Matching Value
  | .literal string, _ => literal string
  | .regex expression description, _ => ofText (Primitive.regex expression description)
  | .any, _ => ofText Primitive.anyChar
  | .rule id, _ => rules id none
  | .param, _ => literal (param.getD "")
  | .variable index, values => literal ((values[index]?.map Value.text).getD "")
  | .template id argument, _ => rules id (some argument)
  | .negative inner, values => negative (ofMatcher rules param inner values)
  | .look inner, values => Combinator.look (ofMatcher rules param inner values)
  | .attempt inner, values => Combinator.attempt (ofMatcher rules param inner values)
  | .backtrack inner, values => Combinator.backtrack (ofMatcher rules param inner values)
  | .external _ (some transformer) inner, values => transformer (ofMatcher rules param inner values)
  | .external name none _, _ => fun _ start => .done (.failure ⟨"<" ++ name ++ ">", start⟩)
  | .group items important, _ => fun input start =>
    (Combinator.sequence (ofMatchers rules param items) [] input start).mapValue fun values =>
      .ofItems (project values important)
  | .repeated inner .optional, values => optional (ofMatcher rules param inner values)
  | .repeated inner .any, values => many (ofMatcher rules param inner values)
  | .repeated inner .oneOrMore, values => many1 (ofMatcher rules param inner values)

/-- The functions for the items of a sequence. -/
def ofMatchers (rules : Rules) (param : Option String) :
    List Matcher → List (List Value → Matching Value)
  | [] => []
  | item :: items => ofMatcher rules param item :: ofMatchers rules param items

end

/-- The function for an alternative, whose mapper asks for the text if there is one. -/
def ofAlternative (rules : Rules) (param : Option String) (alternative : CompiledAlternative) :
    Matching Value :=
  let items := Combinator.sequence (ofMatchers rules param alternative.items) []
  if alternative.mapper.isSome then textOf items
  else fun input start => (items input start).mapValue .ofItems

/-- The function for a rule. -/
def ofRule (rules : Rules) (rule : CompiledRule) (param : Option String) : Matching Value :=
  let choice := Combinator.choice (rule.alternatives.map (ofAlternative rules param))
  if rule.skipsBlank then lexeme choice else choice

/-- Functions that are what a program makes of them. -/
def Fits (rules : Rules) (program : Program) : Prop :=
  ∀ id rule, program.rules[id]? = some rule → ∀ param, rules id param = ofRule rules rule param

variable {rules : Rules} {program : Program} {param : Option String} {input : List Char}

theorem ofMatchers_eq_map (items : List Matcher) :
    ofMatchers rules param items = items.map (ofMatcher rules param) := by
  induction items with
  | nil => rfl
  | cons item items ih => rw [ofMatchers, ih, List.map_cons]

/-! ### One step -/

/-- Whether no mapper of a program asks for anything but the text. -/
def isTextual (program : Program) : Bool :=
  program.rules.all fun rule => rule.alternatives.all fun alternative =>
    match alternative.mapper with
    | none | some .text => true
    | _ => false

theorem isTextual_of_mem (h : isTextual program = true) {id : Nat} {rule : CompiledRule}
    (hrule : program.rules[id]? = some rule) {alternative : CompiledAlternative}
    (halternative : alternative ∈ rule.alternatives) :
    alternative.mapper = none ∨ alternative.mapper = some .text := by
  rw [isTextual, List.all_eq_true] at h
  have hmapper := List.all_eq_true.1 (h rule (List.mem_of_getElem? hrule)) alternative halternative
  obtain ⟨items, mapper⟩ := alternative
  rcases mapper with - | expr
  · exact .inl rfl
  · cases expr <;> first | exact .inr rfl | cases hmapper

/-- A step does what the functions do. -/
def StepIs (rules : Rules) (step : Program.Step) (param : Option String) (input : List Char)
    (item : Matcher) : Prop :=
  ∀ captures start, Run.Alike Eq 0 (step ⟨param, captures⟩ item input start)
    (ofMatcher rules param item (captures.map (·.value)) input (0 + start))

variable {step : Program.Step}

theorem matchItems_function {items : List Matcher}
    (h : ∀ item ∈ items, StepIs rules step param input item) (start : Nat) :
    Run.Alike (fun captures values => captures.map Capture.value = values) 0
      (Program.matchItems step items param input start)
      (Combinator.sequence (ofMatchers rules param items) [] input (0 + start)) := by
  rw [ofMatchers_eq_map]
  refine (Combinator.sequence_alike ?_ .nil start).mono fun _ _ => map_eq_of_forall₂
  rw [List.forall₂_map_left_iff, List.forall₂_map_right_iff, List.forall₂_same]
  intro item hitem captures values hvalues start
  obtain rfl := map_eq_of_forall₂ hvalues
  exact (h item hitem captures start).andThen_left fun _ _ stop hvalue => .success _ _ stop hvalue

theorem matchAlternative_function {alternative : CompiledAlternative}
    (hmapper : alternative.mapper = none ∨ alternative.mapper = some .text)
    (h : ∀ item ∈ alternative.items, StepIs rules step param input item)
    (hsteady : ∀ item ∈ alternative.items, ∀ captures start,
      Program.Steady input start (step ⟨param, captures⟩ item input start)) (start : Nat) :
    Run.Alike Eq 0 (Program.matchAlternative step alternative param input start)
      (ofAlternative rules param alternative input (0 + start)) := by
  have hitems := matchItems_function h start
  obtain ⟨items, mapper⟩ := alternative
  rcases hmapper with rfl | rfl
  · show Run.Alike Eq 0 _ (Run.mapValue Value.ofItems _)
    rw [← Run.andThen_done]
    refine hitems.andThen fun captures values stop hvalues => .success _ _ stop ?_
    exact congrArg Value.ofItems hvalues
  · refine hitems.andThen_ensures (Program.matchItems_steady hsteady start)
      fun captures values stop _ hstop => .success _ _ stop ?_
    rw [Nat.zero_add, Nat.zero_add]
    exact MapperExpr.evaluate_text hstop captures

/-- A rule does what its function does, once its items do. -/
theorem matchRule_function (hfits : Fits rules program) (htextual : isTextual program = true)
    {id : Nat} {rule : CompiledRule} (hrule : program.rules[id]? = some rule)
    (h : ∀ alternative ∈ rule.alternatives, ∀ item ∈ alternative.items,
      StepIs rules step param input item ∧
      ∀ captures start, Program.Steady input start (step ⟨param, captures⟩ item input start))
    (start : Nat) :
    Run.Alike Eq 0 (program.matchRule step id param input start) (rules id param input (0 + start)) := by
  have hchoice : Run.Alike Eq 0
      (Combinator.choice (rule.alternatives.map fun alternative =>
        Program.matchAlternative step alternative param) input start)
      (Combinator.choice (rule.alternatives.map (ofAlternative rules param)) input (0 + start)) := by
    refine Combinator.choice_alike ?_
    rw [List.forall₂_map_left_iff, List.forall₂_map_right_iff, List.forall₂_same]
    intro alternative halternative
    have hitems := h alternative halternative
    exact matchAlternative_function (isTextual_of_mem htextual hrule halternative)
      (fun item hitem => (hitems item hitem).1) (fun item hitem => (hitems item hitem).2) start
  have hrun := Program.matchRule_alike hrule hchoice
  rw [hfits id rule hrule param, ofRule]
  cases hskips : rule.skipsBlank with
  | false => rwa [hskips] at hrun
  | true => rwa [hskips] at hrun

/-- Any fuel that is enough for the text does what the attempts of a function do. -/
theorem many_function {body body' : Matching Value} {fuel : Nat}
    (h : ∀ start, Run.Alike Eq 0 (body input start) (body' input (0 + start)))
    (hends : ∀ start, (body input start).Ends)
    (hsteady : ∀ start, Program.Steady input start (body input start)) (hfuel : size input < fuel)
    (start : Nat) :
    Run.Alike Eq 0 (Combinator.many fuel body input start)
      (Combinator.many (attempts input) body' input (0 + start)) := by
  have hattempts : size input < attempts input := by unfold attempts; omega
  -- both amounts are enough, so the run is the same with the other one
  rw [Combinator.many_eq_of_ends (Combinator.many_ends_of_steady hends hsteady hfuel start)
    (Combinator.many_ends_of_steady hends hsteady hattempts start)]
  refine (Combinator.many_alike h (attempts input) start).mono fun values values' hvalues => ?_
  rwa [List.forall₂_eq_eq_eq] at hvalues

/-! ### Whole runs -/

/-- What is called has less work left, so there is fuel for its items. -/
theorem calledRule_function (hfits : Fits rules program) (htextual : isTextual program = true)
    (hlayered : program.isLayered = true) {total fuel id : Nat}
    (hmatcher : ∀ {m : Matcher} {param : Option String}, program.PartOf id m →
      program.layeredWork total id m.parts.length < fuel →
      StepIs rules (program.matcher fuel) param input m)
    (hid : id < program.rules.length)
    (hfuel : program.layeredWork total id program.size < fuel) (param : Option String)
    (start : Nat) :
    Run.Alike Eq 0 (program.matchRule (program.matcher fuel) id param input start)
      (rules id param input (0 + start)) := by
  have hsteady := Program.isSteady_of_isLayered hlayered
  have hrule := List.getElem?_eq_getElem hid
  refine matchRule_function hfits htextual hrule (fun alternative halternative item hitem => ?_)
    start
  have hpart := Program.PartOf.ofItem hlayered hrule halternative hitem
  refine ⟨hmatcher hpart ?_, fun captures start => ?_⟩
  · exact (Nat.add_le_add_left hpart.contains.length_le_size _).trans_lt hfuel
  · exact Program.matcher_steady hsteady fuel _
      (Program.isSteady_of_mem hsteady hrule halternative hitem) input start

/-- Every matcher of a rule does what its function does, when there is more fuel than work. -/
theorem matcher_function (hfits : Fits rules program) (htextual : isTextual program = true)
    (hlayered : program.isLayered = true) {total fuel id : Nat} {m : Matcher}
    (hm : program.PartOf id m) (hsize : size input ≤ total)
    (hfuel : program.layeredWork total id m.parts.length < fuel) :
    StepIs rules (program.matcher fuel) param input m := by
  induction fuel generalizing id m param input with
  | zero => exact absurd hfuel (Nat.not_lt_zero _)
  | succ fuel ih =>
    intro captures start
    have hsteady := Program.isSteady_of_isLayered hlayered
    have hmay := hm.may.self
    have hinner : ∀ {inner : Matcher}, m.parts = m :: inner.parts →
        StepIs rules (program.matcher fuel) param input inner :=
      fun hparts => ih (hm.ofBody hparts) hsize (Program.layeredWork_lt_of_body hparts hfuel)
    have hcall : ∀ {callee : Nat} {param : Option String},
        id < callee ∧ callee < program.rules.length →
        Run.Alike Eq 0 (program.matchRule (program.matcher fuel) callee param input start)
          (rules callee param input (0 + start)) := by
      intro callee param hcallee
      refine calledRule_function hfits htextual hlayered
        (fun hpart hfuel => ih hpart hsize hfuel) hcallee.2 ?_ param start
      exact (Program.layeredWork_lt_of_call hcallee.1 hcallee.2 _).trans_le
        (Nat.le_of_lt_succ hfuel)
    cases m with
    | literal string | regex expression description | any | param =>
      rw [Nat.zero_add]
      exact .refl _
    | «variable» index =>
      rw [Nat.zero_add, ofMatcher, List.getElem?_map, Option.map_map]
      exact .refl _
    | rule callee => exact hcall (of_decide_eq_true hmay)
    | template callee argument => exact hcall (of_decide_eq_true hmay)
    | negative inner =>
      exact (Combinator.negative_alike (.self input) (hinner rfl captures start)).mapValue
        fun _ _ => congrArg Value.str
    | look inner => exact Combinator.look_alike (hinner rfl captures start)
    | attempt inner => exact Combinator.attempt_alike (hinner rfl captures start)
    | backtrack inner =>
      rw [Nat.zero_add]
      refine Combinator.backtrack_alike fun passed hpassed => ?_
      -- the reversed text is another one, so the induction is on all texts up to a size
      obtain ⟨rest, rfl, -⟩ := takeBytes?_eq_some_iff.1 hpassed
      rw [size_append] at hsize
      exact ih (hm.ofBody rfl) (by rw [size_reverse]; omega)
        (Program.layeredWork_lt_of_body rfl hfuel) captures 0
    | external name transformer inner => cases hmay
    | group items important =>
      refine (matchItems_function (fun item hitem => ?_) start).mapValue fun captures values h => ?_
      · exact ih (hm.ofMember hitem) hsize (Program.layeredWork_lt_of_member hfuel hitem)
      · rw [Program.groupValue, ← h]
    | repeated inner repetition =>
      -- the fuel of the interpreter covers the attempts, since it covers the work
      have hless : program.layeredWork total id inner.parts.length < fuel :=
        Program.layeredWork_lt_of_body rfl hfuel
      have hbody : StepIs rules (program.matcher fuel) param input inner := hinner rfl
      have hmany := many_function (hbody captures)
        (fun start =>
          Program.layersEndWithin hlayered total fuel (hm.ofBody rfl) _ input start hsize hless)
        (Program.matcher_steady hsteady fuel ⟨param, captures⟩ hmay input)
        (hsize.trans_lt (Program.total_lt_of_layeredWork hless))
      cases repetition with
      | optional =>
        refine (Combinator.optional_alike (hbody captures start)).mapValue fun value value' h => ?_
        cases h with
        | none => rfl
        | some h => rw [h]
      | any => exact (hmany start).mapValue fun _ _ => congrArg Value.list
      | oneOrMore =>
        refine ((hbody captures start).andThen fun first first' stop hfirst => ?_).mapValue
          fun _ _ => congrArg Value.list
        exact (hmany stop).mapValue fun values values' hvalues => by rw [hfirst, hvalues]

/-- Functions that fit a program without recursion do what the interpreter does, and both come to
an end with the fuel of a run. -/
theorem call_function (hfits : Fits rules program) (htextual : isTextual program = true)
    (hlayered : program.isLayered = true) {id : Nat} (hid : id < program.rules.length)
    (param : Option String) (input : List Char) (start : Nat) {fuel : Nat}
    (hfuel : program.fuel input ≤ fuel) :
    (rules id param input start).outcome? = (program.call fuel id param input start).outcome? := by
  have hrun := calledRule_function hfits htextual hlayered
    (fun hpart hfuel => matcher_function hfits htextual hlayered hpart (Nat.le_refl _) hfuel) hid
    ((program.layeredWork_lt_fuel input id).trans_le hfuel) param start
  rw [Nat.zero_add] at hrun
  exact hrun.outcome_eq

end Sample

end Peg
