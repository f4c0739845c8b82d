/-
Peg/Proofs/Program/Renumber.lean

Programs with their rules numbered differently.

Rules refer to each other by number, and the analyses go through them in the
order of their numbers.  None of that shows: renumber the rules by a bijection
`σ`, in the calls and in the places of the rules alike, and

    the run of      σ id  ends as the run of      id,
    the entry of    σ id  is      the entry of    id,
    the left calls of  σ id  are  the left calls of  id, renumbered,

so the one program is left-recursive when the other is.

The runs are compared fuel for fuel (`Run.Alike`).  The tables need an
argument of their own, since the passes of the one program are not those of
the other: the tables of the second, looked up through `σ`, are closed for the
first, so they have all its entries, and the other way round.

Only the events of a run tell the numbers of rules.  A function of the host
does not see them: it is told how the matches it asks for end
(`Transformer.SeesOutcomes`).
-/
import Mathlib.Logic.Equiv.Basic
import Peg.Proofs.Program.Correct
import Peg.Proofs.Program.Instance
import Peg.Proofs.Program.Moved

namespace Peg

/-! ### New numbers -/

mutual

/-- The matcher with new numbers for the rules it calls. -/
def Matcher.renumber (σ : Nat → Nat) : Matcher → Matcher
  | .rule id => .rule (σ id)
  | .template id argument => .template (σ id) argument
  | .negative inner => .negative (inner.renumber σ)
  | .look inner => .look (inner.renumber σ)
  | .attempt inner => .attempt (inner.renumber σ)
  | .backtrack inner => .backtrack (inner.renumber σ)
  | .external name transformer inner => .external name transformer (inner.renumber σ)
  | .group items important => .group (renumberAll σ items) important
  | .repeated inner repetition => .repeated (inner.renumber σ) repetition
  | .literal string => .literal string
  | .regex expression description => .regex expression description
  | .any => .any
  | .param => .param
  | .variable index => .variable index

/-- The matchers of a sequence with new numbers. -/
def renumberAll (σ : Nat → Nat) : List Matcher → List Matcher
  | [] => []
  | item :: items => item.renumber σ :: renumberAll σ items

end

/-- The recursion over several matchers, as one over a list. -/
theorem renumberAll_eq_map (σ : Nat → Nat) (items : List Matcher) :
    renumberAll σ items = items.map (Matcher.renumber σ) := by
  induction items with
  | nil => rfl
  | cons item items ih => rw [renumberAll, ih, List.map_cons]

/-- The alternative with new numbers. -/
def CompiledAlternative.renumber (σ : Nat → Nat) (alternative : CompiledAlternative) :
    CompiledAlternative :=
  { alternative with items := renumberAll σ alternative.items }

/-- The rule with new numbers for the rules it calls. -/
def CompiledRule.renumber (σ : Nat → Nat) (rule : CompiledRule) : CompiledRule :=
  { rule with alternatives := rule.alternatives.map (CompiledAlternative.renumber σ) }

/-- The rules of one program are those of another one, each with its new number. -/
structure Program.IsRenumbered (σ : Equiv.Perm Nat) (program program' : Program) : Prop where
  rules : (program.rules.map (CompiledRule.renumber σ)).Perm program'.rules
  places : ∀ id, program'.rules[σ id]? = program.rules[id]?.map (CompiledRule.renumber σ)

/-! ### Back to the old numbers -/

section

variable (σ : Equiv.Perm Nat)

mutual

/-- Going back to the old numbers undoes the renumbering, by induction on matchers. -/
theorem Matcher.renumber_symm : ∀ m : Matcher, (m.renumber σ).renumber σ.symm = m
  | .literal _ | .regex _ _ | .any | .param | .variable _ => rfl
  | .rule id | .template id _ => by
    simp only [Matcher.renumber, Equiv.symm_apply_apply]
  | .negative inner | .look inner | .attempt inner | .backtrack inner | .external _ _ inner
  | .repeated inner _ => by
    simp only [Matcher.renumber, inner.renumber_symm]
  | .group items _ => by
    simp only [Matcher.renumber, renumberAll_symm items]

theorem renumberAll_symm : ∀ items : List Matcher,
    renumberAll σ.symm (renumberAll σ items) = items
  | [] => rfl
  | item :: items => by
    simp only [renumberAll, item.renumber_symm, renumberAll_symm items]

end

/-- So it does in all alternatives of a rule. -/
theorem CompiledRule.renumber_symm (rule : CompiledRule) :
    (rule.renumber σ).renumber σ.symm = rule := by
  have halternatives : CompiledAlternative.renumber σ.symm ∘ CompiledAlternative.renumber σ = id := by
    funext alternative
    simp only [Function.comp_apply, CompiledAlternative.renumber, renumberAll_symm, id]
  rw [renumber, renumber, List.map_map, halternatives, List.map_id]

theorem CompiledRule.renumber_symm_comp :
    CompiledRule.renumber σ.symm ∘ CompiledRule.renumber σ = id :=
  funext (CompiledRule.renumber_symm σ)

end

namespace Program.IsRenumbered

variable {σ : Equiv.Perm Nat} {program program' : Program}

/-- The old program is a renumbering of the new one. -/
theorem symm (h : program.IsRenumbered σ program') : program'.IsRenumbered σ.symm program where
  rules := by
    have hrules := (h.rules.map (CompiledRule.renumber σ.symm)).symm
    rwa [List.map_map, CompiledRule.renumber_symm_comp, List.map_id] at hrules
  places id := by
    have hplace := congrArg (Option.map (CompiledRule.renumber σ.symm)) (h.places (σ.symm id))
    rw [Equiv.apply_symm_apply, Option.map_map, CompiledRule.renumber_symm_comp,
      Option.map_id_apply] at hplace
    exact hplace.symm

/-- There are as many rules as before. -/
theorem length_eq (h : program.IsRenumbered σ program') :
    program'.rules.length = program.rules.length := by
  rw [← h.rules.length_eq, List.length_map]

/-- A rule is at its new place, with new numbers in it. -/
theorem place (h : program.IsRenumbered σ program') {id : Nat} {rule : CompiledRule}
    (hrule : program.rules[id]? = some rule) :
    program'.rules[σ id]? = some (rule.renumber σ) := by
  rw [h.places, hrule, Option.map_some]

end Program.IsRenumbered

/-! ### Parts -/

mutual

/-- The parts are the same ones renumbered, in the same order. -/
theorem Matcher.parts_renumber (σ : Nat → Nat) : ∀ m : Matcher,
    (m.renumber σ).parts = m.parts.map (Matcher.renumber σ)
  | .literal _ | .regex _ _ | .any | .rule _ | .param | .variable _ | .template _ _ => rfl
  | .negative inner | .look inner | .attempt inner | .backtrack inner | .external _ _ inner
  | .repeated inner _ => by
    simp only [Matcher.renumber, Matcher.parts, inner.parts_renumber, List.map_cons]
  | .group items _ => by
    simp only [Matcher.renumber, Matcher.parts, partsOfAll_renumber σ items, List.map_cons]

theorem partsOfAll_renumber (σ : Nat → Nat) : ∀ items : List Matcher,
    partsOfAll (renumberAll σ items) = (partsOfAll items).map (Matcher.renumber σ)
  | [] => rfl
  | item :: items => by
    rw [renumberAll, partsOfAll, partsOfAll, item.parts_renumber, partsOfAll_renumber σ items,
      List.map_append]

end

/-- So are the parts of a rule. -/
theorem CompiledRule.parts_renumber (σ : Nat → Nat) (rule : CompiledRule) :
    (rule.renumber σ).parts = rule.parts.map (Matcher.renumber σ) := by
  rw [parts, parts, renumber, List.flatMap_map, List.map_flatMap]
  apply List.flatMap_congr
  intro alternative _
  exact partsOfAll_renumber σ alternative.items

namespace Program.IsRenumbered

variable {σ : Equiv.Perm Nat} {program program' : Program}

/-- The number of all parts does not change, so the fuel does not either. -/
theorem size_eq (h : program.IsRenumbered σ program') : program'.size = program.size := by
  have hparts := (h.rules.flatMap_right CompiledRule.parts).length_eq
  rw [List.flatMap_map, List.length_flatMap] at hparts
  rw [size, size, ← hparts, List.length_flatMap]
  simp only [CompiledRule.parts_renumber, List.length_map]

/-- The same fuel is enough for both. -/
theorem fuel_eq (h : program.IsRenumbered σ program') (input : List Char) :
    program'.fuel input = program.fuel input := by
  rw [fuel, fuel, h.length_eq, h.size_eq]

end Program.IsRenumbered

/-! ### Functions of the host -/

/-- A function of the host that is told how the matches it asks for end, and not what happens on
the way. -/
def Transformer.SeesOutcomes (transformer : Transformer) : Prop :=
  ∀ inner inner' : Matching Value,
    (∀ input start, (inner' input start).outcome? = (inner input start).outcome?) →
    ∀ input start, (transformer inner' input start).outcome? =
      (transformer inner input start).outcome?

/-- Matchers whose function of the host, if they are one, is told no more than that. -/
def Matcher.SeesOutcomes : Matcher → Prop
  | .external _ (some transformer) _ => transformer.SeesOutcomes
  | _ => True

/-- Runs with the same outcome are alike. -/
theorem Run.Alike.of_outcome_eq {α : Type} {run other : Run α}
    (h : other.outcome? = run.outcome?) : Run.Alike Eq 0 run other := by
  rcases run with - | ⟨events, outcome⟩
  · obtain rfl : other = none := Option.map_eq_none_iff.1 h
    exact .cutShort
  · obtain ⟨⟨events', outcome'⟩, rfl, rfl⟩ := Option.map_eq_some_iff.1 h
    rcases outcome' with ⟨value, stop⟩ | failure | fault
    · exact .success_here _ _ _ rfl
    · exact .failure_here ..
    · exact .fault ..

/-! ### Runs -/

namespace Program

variable {σ : Nat → Nat} {step step' : Step} {param : Option String} {input : List Char}

/-- A step does the same with the new numbers. -/
def StepRenumbers (σ : Nat → Nat) (step step' : Step) (param : Option String) (input : List Char)
    (item : Matcher) : Prop :=
  ∀ captures start, Run.Alike Eq 0 (step ⟨param, captures⟩ item input start)
    (step' ⟨param, captures⟩ (item.renumber σ) input (0 + start))

/-- Items one after the other do the same, if each of them does. -/
theorem matchItems_renumber {items : List Matcher}
    (h : ∀ item ∈ items, StepRenumbers σ step step' param input item) (start : Nat) :
    Run.Alike Eq 0 (matchItems step items param input start)
      (matchItems step' (renumberAll σ items) param input (0 + start)) := by
  rw [renumberAll_eq_map]
  refine (Combinator.sequence_alike ?_ .nil start).mono fun captures captures' =>
    (congrFun₂ List.forall₂_eq_eq_eq captures captures').mp
  rw [List.forall₂_map_left_iff, List.forall₂_map_right_iff, List.forall₂_map_right_iff,
    List.forall₂_same]
  intro item hitem captures captures' hcaptures start
  rw [List.forall₂_eq_eq_eq] at hcaptures
  subst hcaptures
  refine (h item hitem captures start).andThen fun value value' stop hvalue => ?_
  subst hvalue
  rw [Nat.zero_add, Nat.zero_add]
  exact .refl _

/-- An alternative does the same if its items do. -/
theorem matchAlternative_renumber {alternative : CompiledAlternative}
    (h : ∀ item ∈ alternative.items, StepRenumbers σ step step' param input item) (start : Nat) :
    Run.Alike Eq 0 (matchAlternative step alternative param input start)
      (matchAlternative step' (alternative.renumber σ) param input (0 + start)) := by
  refine (matchItems_renumber h start).andThen fun captures captures' stop hcaptures => ?_
  subst hcaptures
  rw [Nat.zero_add, Nat.zero_add]
  exact .refl _

variable {program program' : Program}

/-- A rule does the same at its new place if all items in it do. -/
theorem matchRule_renumber {id : Nat} {rule : CompiledRule} (hrule : program.rules[id]? = some rule)
    (hrule' : program'.rules[σ id]? = some (rule.renumber σ))
    (h : ∀ alternative ∈ rule.alternatives, ∀ item ∈ alternative.items,
      StepRenumbers σ step step' param input item) (start : Nat) :
    Run.Alike Eq 0 (program.matchRule step id param input start)
      (program'.matchRule step' (σ id) param input (0 + start)) := by
  refine rules_alike (.self input) hrule hrule' rfl ?_
  rw [CompiledRule.renumber, List.forall₂_map_right_iff, List.forall₂_same]
  exact fun alternative halternative =>
    matchAlternative_renumber (h alternative halternative) start

end Program

namespace Program.IsRenumbered

variable {σ : Equiv.Perm Nat} {program program' : Program}

/-- A matcher of a closed program does the same with the new numbers. -/
theorem matcher_alike (h : program.IsRenumbered σ program') (hclosed : program.IsClosed)
    (hhost : program.Every Matcher.SeesOutcomes) (fuel : Nat) (param : Option String)
    (input : List Char) {m : Matcher} (hm : m.Every (Matcher.CallsOnly (· < program.rules.length)))
    (hsees : m.Every Matcher.SeesOutcomes) :
    StepRenumbers σ (program.matcher fuel) (program'.matcher fuel) param input m := by
  induction fuel generalizing m param input with
  | zero => exact fun _ _ => .cutShort
  | succ fuel ih =>
    intro captures start
    have hrule : ∀ id < program.rules.length, ∀ param,
        Run.Alike Eq 0 (program.matchRule (program.matcher fuel) id param input start)
          (program'.matchRule (program'.matcher fuel) (σ id) param input (0 + start)) := by
      intro id hid param
      have hplace := List.getElem?_eq_getElem hid
      exact matchRule_renumber hplace (h.place hplace)
        (fun alternative halternative item hitem => ih param input
          (hclosed.ofItem hplace halternative hitem) (hhost.ofItem hplace halternative hitem)) start
    have htext : ∀ {outcome outcome' : Outcome String},
        Run.Alike Eq 0 (Run.primitive outcome) (Run.primitive outcome') →
        Run.Alike Eq 0 (Run.primitive (outcome.map Value.str))
          (Run.primitive (outcome'.map Value.str)) := by
      intro outcome outcome' houtcome
      rw [Run.primitive_map, Run.primitive_map]
      exact houtcome.mapValue fun _ _ => congrArg Value.str
    cases m with
    | literal string => exact htext (Primitive.literal_alike (.self input) string start)
    | regex expression description =>
      exact htext (Primitive.regex_alike (.self input) expression description start)
    | any => exact htext (Primitive.anyChar_alike (.self input) start)
    | rule id => exact hrule id hm.self none
    | param => exact htext (Primitive.literal_alike (.self input) _ start)
    | «variable» index => exact htext (Primitive.literal_alike (.self input) _ start)
    | template id argument => exact hrule id hm.self (some argument)
    | negative inner =>
      exact (Combinator.negative_alike (.self input)
        (ih param input hm.negative hsees.negative captures start)).mapValue
          fun _ _ => congrArg Value.str
    | look inner =>
      exact Combinator.look_alike (ih param input hm.look hsees.look captures start)
    | attempt inner =>
      exact Combinator.attempt_alike (ih param input hm.attempt hsees.attempt captures start)
    | backtrack inner =>
      rw [Nat.zero_add]
      exact Combinator.backtrack_alike fun passed _ =>
        ih param passed.reverse hm.backtrack hsees.backtrack captures 0
    | external name transformer inner =>
      rw [Nat.zero_add]
      cases transformer with
      | none => exact .refl _
      | some transformer =>
        -- the function may ask for matches anywhere, and is told the same about each
        refine .of_outcome_eq (hsees.self _ _ (fun input start => ?_) input start)
        have hinner := ih param input hm.external hsees.external captures start
        rw [Nat.zero_add] at hinner
        exact hinner.outcome_eq
    | group items important =>
      exact (matchItems_renumber (fun item hitem => ih param input (hm.group item hitem)
        (hsees.group item hitem)) start).mapValue fun _ _ => congrArg (groupValue important)
    | repeated inner repetition =>
      have hinner := ih param input hm.repeated hsees.repeated captures
      have hvalues : ∀ values values', List.Forall₂ Eq values values' →
          Value.list values = .list values' := by
        intro values values' h
        rw [List.forall₂_eq_eq_eq] at h
        rw [h]
      cases repetition with
      | optional =>
        refine (Combinator.optional_alike (hinner start)).mapValue fun value value' h => ?_
        cases h with
        | none => rfl
        | some h => exact h
      | any => exact (Combinator.many_alike hinner fuel start).mapValue hvalues
      | oneOrMore => exact (Combinator.many1_alike hinner fuel start).mapValue hvalues

/-- So does a rule, under its new number. -/
theorem outcome_call (h : program.IsRenumbered σ program') (hclosed : program.IsClosed)
    (hhost : program.Every Matcher.SeesOutcomes) {id : Nat} (hid : id < program.rules.length)
    (fuel : Nat) (param : Option String) (input : List Char) (start : Nat) :
    (program'.call fuel (σ id) param input start).outcome? =
      (program.call fuel id param input start).outcome? := by
  have hplace := List.getElem?_eq_getElem hid
  have hrun := matchRule_renumber hplace (h.place hplace)
    (fun alternative halternative item hitem => h.matcher_alike hclosed hhost fuel param input
      (hclosed.ofItem hplace halternative hitem) (hhost.ofItem hplace halternative hitem)) start
  rw [Nat.zero_add] at hrun
  exact hrun.outcome_eq

end Program.IsRenumbered

/-! ### Nullable rules -/

namespace Nullable

/-- Two pairs of tables have the same entries under the old and the new numbers. -/
def Agree (σ : Nat → Nat) (nullable nullable' : Nullable) : Prop :=
  ∀ id emptyParam, nullable'.rule (σ id) emptyParam = nullable.rule id emptyParam

variable {σ : Nat → Nat} {nullable nullable' : Nullable}

mutual

/-- With tables that agree the same matchers may match nothing. -/
theorem Agree.isNullable (h : Agree σ nullable nullable') (emptyParam : Bool) : ∀ m : Matcher,
    (m.renumber σ).isNullable nullable' emptyParam = m.isNullable nullable emptyParam
  | .literal _ | .regex _ _ | .any | .param | .variable _ | .negative _ | .look _ | .backtrack _
  | .external _ _ _ => rfl
  | .rule id => h id false
  | .template id argument => h id argument.isEmpty
  | .attempt inner => h.isNullable emptyParam inner
  | .group items _ => h.allNullable emptyParam items
  | .repeated _ .optional | .repeated _ .any => by
    simp only [Matcher.renumber, Matcher.isNullable]
  | .repeated inner .oneOrMore => by
    simp only [Matcher.renumber, Matcher.isNullable]
    exact h.isNullable emptyParam inner

theorem Agree.allNullable (h : Agree σ nullable nullable') (emptyParam : Bool) :
    ∀ items : List Matcher, Peg.allNullable nullable' emptyParam (renumberAll σ items) =
      Peg.allNullable nullable emptyParam items
  | [] => rfl
  | item :: items => by
    rw [renumberAll, Peg.allNullable, Peg.allNullable, h.isNullable emptyParam item,
      h.allNullable emptyParam items]

end

/-- So may the same rules. -/
theorem Agree.rule_isNullable (h : Agree σ nullable nullable') (rule : CompiledRule)
    (emptyParam : Bool) :
    (rule.renumber σ).isNullable nullable' emptyParam = rule.isNullable nullable emptyParam := by
  rw [CompiledRule.isNullable, CompiledRule.isNullable, CompiledRule.renumber, List.any_map]
  apply congrArg (rule.alternatives.any ·)
  funext alternative
  exact h.allNullable emptyParam alternative.items

/-- The tables for the old numbers with the entries that others have for the new ones. -/
def under (σ : Nat → Nat) (count : Nat) (nullable : Nullable) : Nullable :=
  ⟨(List.range count).map fun id => nullable.rule (σ id) false,
    (List.range count).map fun id => nullable.rule (σ id) true⟩

/-- The entry of a rule in the table that is carried over. -/
theorem rule_under {count id : Nat} (hid : id < count) (emptyParam : Bool) :
    (nullable.under σ count).rule id emptyParam = nullable.rule (σ id) emptyParam := by
  cases emptyParam <;> simp [under, Nullable.rule, hid]

/-- A table that is carried over has an entry for each rule. -/
theorem covers_under (σ : Nat → Nat) (count : Nat) (nullable : Nullable) :
    (nullable.under σ count).Covers count := by
  simp [under, Covers]

/-- Rules that do not exist have no entries. -/
theorem Covers.rule_eq_false {count id : Nat} (h : nullable.Covers count) (hid : count ≤ id)
    (emptyParam : Bool) : nullable.rule id emptyParam = false := by
  obtain ⟨hrules, hempty⟩ := h
  cases emptyParam with
  | false => simp [Nullable.rule, hrules.trans_le hid]
  | true => simp [Nullable.rule, hempty.trans_le hid]

end Nullable

namespace Program.IsRenumbered

variable {σ : Equiv.Perm Nat} {program program' : Program}

/-- Rules that do not exist do not under their new numbers. -/
theorem length_le (h : program.IsRenumbered σ program') {id : Nat}
    (hid : program.rules.length ≤ id) : program'.rules.length ≤ σ id := by
  rw [← List.getElem?_eq_none_iff, h.places, List.getElem?_eq_none hid, Option.map_none]

/-- What is nullable stays so, since the table that is carried over is closed under the equations of
the new program. -/
theorem nullable_le (h : program.IsRenumbered σ program') (id : Nat) (emptyParam : Bool)
    (hentry : program.nullable.rule id emptyParam = true) :
    program'.nullable.rule (σ id) emptyParam = true := by
  let found := program'.nullable.under σ program.rules.length
  have hagree : Nullable.Agree σ found program'.nullable := by
    intro id emptyParam
    rcases Nat.lt_or_ge id program.rules.length with hid | hid
    · exact (Nullable.rule_under hid emptyParam).symm
    · rw [program'.nullable_covers.rule_eq_false (h.length_le hid),
        (Nullable.covers_under ..).rule_eq_false hid]
  have hclosed : Nullable.Closed program found := by
    intro id rule emptyParam hrule hnullable
    rw [← hagree]
    rw [← hagree.rule_isNullable] at hnullable
    exact program'.nullable_closed (σ id) _ emptyParam (h.place hrule) hnullable
  rw [hagree]
  exact nullable_below hclosed id trivial emptyParam hentry

/-- A rule has the same entries under its new number. -/
theorem nullable_agree (h : program.IsRenumbered σ program') :
    Nullable.Agree σ program.nullable program'.nullable := by
  intro id emptyParam
  rw [Bool.eq_iff_iff]
  constructor
  · intro hentry
    have hback := h.symm.nullable_le (σ id) emptyParam hentry
    rwa [Equiv.symm_apply_apply] at hback
  · exact h.nullable_le id emptyParam

end Program.IsRenumbered

/-! ### Left recursion -/

namespace Nullable

variable {σ : Nat → Nat} {nullable nullable' : Nullable}

mutual

/-- With tables that agree the same rules are called at the start, under their new numbers. -/
theorem Agree.leftCalls (h : Agree σ nullable nullable') (emptyParam : Bool) : ∀ m : Matcher,
    (m.renumber σ).leftCalls nullable' emptyParam = (m.leftCalls nullable emptyParam).map σ
  | .literal _ | .regex _ _ | .any | .param | .variable _ | .backtrack _ | .rule _
  | .template _ _ => rfl
  | .negative inner | .look inner | .attempt inner | .repeated inner _ | .external _ _ inner =>
    h.leftCalls emptyParam inner
  | .group items _ => h.leftCallsOfAll emptyParam items

theorem Agree.leftCallsOfAll (h : Agree σ nullable nullable') (emptyParam : Bool) :
    ∀ items : List Matcher, Peg.leftCallsOfAll nullable' emptyParam (renumberAll σ items) =
      (Peg.leftCallsOfAll nullable emptyParam items).map σ
  | [] => rfl
  | item :: items => by
    rw [renumberAll, Peg.leftCallsOfAll, Peg.leftCallsOfAll, h.leftCalls emptyParam item,
      h.leftCallsOfAll emptyParam items, h.isNullable, List.map_append, apply_ite (List.map σ),
      List.map_nil]

end

end Nullable

namespace Program.IsRenumbered

variable {σ : Equiv.Perm Nat} {program program' : Program}

/-- A rule is instantiated with the empty literal under its new number if it is under the old
one. -/
theorem hasEmptyInstance (h : program.IsRenumbered σ program') {id : Nat}
    (hinstance : program.hasEmptyInstance id = true) :
    program'.hasEmptyInstance (σ id) = true := by
  obtain ⟨rule, hrule, hpart⟩ := List.any_eq_true.1 hinstance
  obtain ⟨part, hmem, hpart⟩ := List.any_eq_true.1 hpart
  cases part with
  | template other argument =>
    rw [Bool.and_eq_true, beq_iff_eq, String.isEmpty_iff] at hpart
    obtain ⟨rfl, rfl⟩ := hpart
    refine hasEmptyInstance_of_mem (h.rules.subset (List.mem_map_of_mem hrule)) ?_
    rw [CompiledRule.parts_renumber]
    exact List.mem_map_of_mem hmem
  | _ => cases hpart

/-- Whether a template is instantiated with an empty literal somewhere does not depend on numbers.
-/
theorem hasEmptyInstance_eq (h : program.IsRenumbered σ program') (id : Nat) :
    program'.hasEmptyInstance (σ id) = program.hasEmptyInstance id := by
  rw [Bool.eq_iff_iff]
  constructor
  · intro hinstance
    have hback := h.symm.hasEmptyInstance hinstance
    rwa [Equiv.symm_apply_apply] at hback
  · exact h.hasEmptyInstance

/-- The left calls of a rule are those of the rule with the new number. -/
theorem mem_leftCallsOf (h : program.IsRenumbered σ program') {id next : Nat}
    (hnext : next ∈ program.leftCallsOf program.nullable id) :
    σ next ∈ program'.leftCallsOf program'.nullable (σ id) := by
  rcases hrule : program.rules[id]? with - | rule
  · simp [leftCallsOf, hrule] at hnext
  · obtain ⟨hlt, alternative, halternative, hcalls⟩ := (Program.mem_leftCallsOf hrule).1 hnext
    refine (Program.mem_leftCallsOf (h.place hrule)).2
      ⟨?_, _, List.mem_map_of_mem halternative, ?_⟩
    · have hplace := h.place (List.getElem?_eq_getElem hlt)
      exact (List.getElem?_eq_some_iff.1 hplace).1
    · rw [h.hasEmptyInstance_eq, CompiledAlternative.renumber, h.nullable_agree.leftCallsOfAll]
      exact List.mem_map_of_mem hcalls

/-- A cycle of left calls is one under the new numbers. -/
theorem checkLeftRecursion (h : program.IsRenumbered σ program')
    (hchecked : program'.checkLeftRecursion program'.nullable = .ok ()) :
    program.checkLeftRecursion program.nullable = .ok () := by
  rw [checkLeftRecursion_eq_ok_iff] at hchecked ⊢
  intro id hcycle
  exact hchecked (σ id) (hcycle.lift σ fun _ _ => h.mem_leftCallsOf)

/-! ### Warnings -/

/-- The same rules have repetitions that may read nothing. -/
theorem nullableRepetitions (h : program.IsRenumbered σ program') :
    (program'.nullableRepetitions program'.nullable).Perm
      (program.nullableRepetitions program.nullable) := by
  have hpart : Matcher.isNullableRepetition program'.nullable ∘ Matcher.renumber σ =
      Matcher.isNullableRepetition program.nullable := by
    funext m
    cases m with
    | repeated inner repetition =>
      cases repetition with
      | optional => rfl
      | any => exact h.nullable_agree.isNullable false inner
      | oneOrMore => exact h.nullable_agree.isNullable false inner
    | _ => rfl
  have hrule : ∀ rule : CompiledRule,
      (((rule.renumber σ).parts.filter (Matcher.isNullableRepetition program'.nullable)).map
        fun _ => (rule.renumber σ).name) =
      (rule.parts.filter (Matcher.isNullableRepetition program.nullable)).map
        fun _ => rule.name := by
    intro rule
    rw [CompiledRule.parts_renumber, List.filter_map, hpart, List.map_map]
    rfl
  have hwarnings := h.rules.symm.flatMap_right fun rule =>
    (rule.parts.filter (Matcher.isNullableRepetition program'.nullable)).map fun _ => rule.name
  rw [List.flatMap_map] at hwarnings
  simp only [hrule] at hwarnings
  exact hwarnings

end Program.IsRenumbered

end Peg
