/-
Peg/Proofs/Program/Exact.lean

On the empty text the tables of nullable rules are exact.

Over any text the tables are an upper bound, since a choice may settle for an
earlier alternative or a repetition for one more attempt.  The empty text
leaves no such freedom.  Every match starts and stops at 0, and so does every
failure, which therefore never commits: the alternatives of a rule are tried
one after the other until one is nullable, just as the tables are computed.

    the run of a matcher succeeds at 0   if the matcher is nullable
    the run of a matcher fails at 0      if it is not

`matcher_decides` is this for any amount of fuel, by induction on it; the
tables enter through the equation they solve, `nullable_rule_eq`.  Matchers
that are called nullable without being looked at are left out: lookahead,
backward matchers and captures.  So are functions of the host.

That the run is not cut short is a matter of left recursion, and nothing has to
be asked of regular expressions here, for the empty text is the one they are
looked at on.
-/
import Peg.Proofs.Program.Course
import Peg.Proofs.Program.Fixpoint
import Peg.Proofs.Program.Foreseen

namespace Peg

/-! ### Runs on the empty text -/

/-- A run that succeeds at the beginning or fails there, which of the two a Boolean says. -/
abbrev Run.Decides {α : Type} (run : Run α) (nullable : Bool) : Prop :=
  run.Ensures (fun _ stop => stop = 0 ∧ nullable = true)
    fun failure => failure.position = 0 ∧ nullable = false

/-- A run that ends in a success. -/
def Run.Succeeds {α : Type} (run : Run α) : Prop :=
  ∃ events value stop, run = some (events, .success value stop)

theorem Run.Ends.succeeds_iff {α : Type} {run : Run α} {nullable : Bool} (h : run.Ends)
    (hdecides : run.Decides nullable) : nullable = true ↔ run.Succeeds := by
  cases h with
  | success events value stop => exact iff_of_true hdecides.2 ⟨events, value, stop, rfl⟩
  | failure events failure =>
    have hnullable : nullable = false := hdecides.2
    refine iff_of_false (by simp [hnullable]) ?_
    rintro ⟨events', value, stop, hrun⟩
    cases hrun

namespace Combinator

variable {α ι : Type} {body : Matching α} {nullable : Bool}

/-- No failure commits at the beginning, so a choice goes on until an alternative succeeds. -/
theorem choice_decides {alternatives : List ι} {matching : ι → Matching α} {nullable : ι → Bool}
    (h : ∀ alternative ∈ alternatives,
      (matching alternative [] 0).Decides (nullable alternative)) :
    (choice (alternatives.map matching) [] 0).Decides (alternatives.any nullable) := by
  induction alternatives with
  | nil => exact ⟨rfl, rfl⟩
  | cons first others ih =>
    have hfirst := h first (List.mem_cons_self ..)
    have hothers := ih fun alternative hmem => h alternative (List.mem_cons_of_mem _ hmem)
    rw [List.any_cons]
    cases others with
    | nil =>
      rw [List.any_nil, Bool.or_false]
      exact hfirst
    | cons next others =>
      rw [List.map_cons] at hothers
      rw [List.map_cons, List.map_cons, choice]
      generalize matching first [] 0 = run at hfirst
      rcases run with - | ⟨events, ⟨value, stop⟩ | failure | fault⟩
      · trivial
      · exact ⟨hfirst.1, by rw [hfirst.2, Bool.true_or]⟩
      · -- where the alternative has failed is where it was tried
        obtain ⟨hposition, hnullable⟩ := hfirst
        rw [hnullable, Bool.false_or]
        dsimp only
        rw [if_pos hposition]
        exact hothers.after events
      · trivial

theorem optional_decides (h : (body [] 0).Decides nullable) :
    (optional body [] 0).Decides true := by
  unfold optional
  generalize body [] 0 = run at h
  rcases run with - | ⟨events, ⟨value, stop⟩ | failure | fault⟩
  · trivial
  · exact ⟨h.1, rfl⟩
  · dsimp only
    rw [if_pos h.1]
    exact ⟨rfl, rfl⟩
  · trivial

/-- The first attempt is the last one: it fails at the beginning or does not advance. -/
theorem many_decides (h : (body [] 0).Decides nullable) (fuel : Nat) :
    (many fuel body [] 0).Decides true := by
  cases fuel with
  | zero => trivial
  | succ fuel =>
    unfold many
    generalize body [] 0 = run at h
    rcases run with - | ⟨events, ⟨value, stop⟩ | failure | fault⟩
    · trivial
    · dsimp only
      rw [if_pos h.1]
      exact ⟨rfl, rfl⟩
    · dsimp only
      rw [if_pos h.1]
      exact ⟨rfl, rfl⟩
    · trivial

end Combinator

namespace Primitive

theorem literal_decides (string : String) :
    (Run.primitive ((literal string [] 0).map Value.str)).Decides string.isEmpty := by
  unfold literal
  rw [Text.dropBytes?_zero, Option.bind_some]
  rcases hstring : string.toList with - | ⟨c, cs⟩
  · refine ⟨rfl, ?_⟩
    rw [String.isEmpty_iff, ← String.toList_eq_nil_iff]
    exact hstring
  · refine ⟨rfl, ?_⟩
    rw [← Bool.not_eq_true, String.isEmpty_iff, ← String.toList_eq_nil_iff, hstring]
    exact List.cons_ne_nil c cs

/-- The empty text is the one that regular expressions are looked at on. -/
theorem regex_decides (expression : Regex) (description : String) :
    (Run.primitive ((regex expression description [] 0).map Value.str)).Decides
      expression.matchesEmpty := by
  unfold regex Regex.matchesEmpty
  rw [Text.dropBytes?_zero]
  dsimp only
  rcases hlength : expression.matchLength? [] with - | length
  · exact ⟨rfl, rfl⟩
  · obtain ⟨passed, rest, hnil, rfl⟩ := Regex.matchLength?_eq_some hlength
    have hpassed : passed = [] := (List.append_eq_nil_iff.1 hnil.symm).1
    rw [hpassed]
    exact ⟨rfl, rfl⟩

end Primitive

/-! ### Matchers on the empty text -/

/-- Matchers whose nullability is found out by looking at them. -/
def Matcher.isInspected : Matcher → Bool
  | .look _ | .backtrack _ | .variable _ | .external _ _ _ => false
  | _ => true

/-- The kind of parameter that is assumed is the one there is, for a matcher that looks at it. -/
def Matcher.IsGiven (param : Option String) (emptyParam : Bool) (m : Matcher) : Prop :=
  m.Every fun part => part.isParam = true → (param.getD "").isEmpty = emptyParam

namespace Program

variable {program : Program} {emptyParam : Bool} {param : Option String} {step : Step}

/-- The items of a sequence are tried as long as they are nullable. -/
theorem sequence_decides {items : List Matcher}
    (h : ∀ item ∈ items, ∀ captures, (step ⟨param, captures⟩ item [] 0).Decides
      (item.isNullable program.nullable emptyParam)) (captures : List Capture) :
    (Combinator.sequence (items.map fun item captures input start =>
      Run.andThen (step ⟨param, captures⟩ item input start) fun value stop =>
        .done (.success ⟨value, ⟨start, stop⟩⟩ stop)) captures [] 0).Decides
      (allNullable program.nullable emptyParam items) := by
  induction items generalizing captures with
  | nil => exact ⟨rfl, rfl⟩
  | cons item items ih =>
    have hitem := h item (List.mem_cons_self ..) captures
    have hrest := ih fun item hmem => h item (List.mem_cons_of_mem _ hmem)
    rw [List.map_cons, Combinator.sequence, allNullable]
    generalize step ⟨param, captures⟩ item [] 0 = run at hitem
    rcases run with - | ⟨events, ⟨value, stop⟩ | failure | fault⟩
    · trivial
    · -- the item has stopped at the beginning, so the others start there too
      obtain ⟨rfl, hnullable⟩ := hitem
      rw [hnullable, Bool.true_and]
      exact (hrest _).after _
    · obtain ⟨hposition, hnullable⟩ := hitem
      exact ⟨hposition, by rw [hnullable, Bool.false_and]⟩
    · trivial

theorem matchRule_decides {id : Nat} {rule : CompiledRule} (hrule : program.rules[id]? = some rule)
    (h : ∀ alternative ∈ rule.alternatives, ∀ item ∈ alternative.items, ∀ captures,
      (step ⟨param, captures⟩ item [] 0).Decides (item.isNullable program.nullable emptyParam)) :
    (program.matchRule step id param [] 0).Decides (program.nullable.rule id emptyParam) := by
  have hbody : (Combinator.choice (rule.alternatives.map fun alternative =>
      matchAlternative step alternative param) [] 0).Decides
      (program.nullable.rule id emptyParam) := by
    rw [nullable_rule_eq hrule, CompiledRule.isNullable]
    refine Combinator.choice_decides fun alternative halternative => ?_
    exact (sequence_decides (h alternative halternative) []).andThen fun captures stop hstop => hstop
  unfold matchRule
  rw [hrule]
  dsimp only
  generalize Combinator.choice _ [] 0 = run at hbody
  rcases run with - | ⟨events, ⟨value, stop⟩ | failure | fault⟩
  · trivial
  · -- no blanks follow on the empty text
    obtain ⟨rfl, hnullable⟩ := hbody
    refine ⟨?_, hnullable⟩
    show (if rule.skipsBlank then 0 else 0) = 0
    exact ite_self 0
  · exact hbody
  · trivial

/-- A matcher succeeds at the beginning of the empty text if it is nullable, and fails there if it
is not. -/
theorem matcher_decides (hinspected : program.Every fun m => m.isInspected = true)
    (hresolved : program.Every (Matcher.IsResolved program)) (fuel : Nat) {m : Matcher}
    (hm : program.Contains m) (hgiven : m.IsGiven param emptyParam) (captures : List Capture) :
    (program.matcher fuel ⟨param, captures⟩ m [] 0).Decides
      (m.isNullable program.nullable emptyParam) := by
  induction fuel generalizing m param emptyParam captures with
  | zero => trivial
  | succ fuel ih =>
    have hself := (hm.every hinspected).self
    cases m with
    | literal string => exact Primitive.literal_decides string
    | regex expression description => exact Primitive.regex_decides expression description
    | any =>
      -- nothing is there to read
      exact ⟨rfl, rfl⟩
    | rule id =>
      obtain ⟨rule, hrule, hparam⟩ := (hm.every hresolved).self
      refine matchRule_decides hrule fun alternative halternative item hitem => ?_
      apply ih (.ofItem hrule halternative hitem)
      -- a rule that is called by its name does not look at a parameter
      intro part hpart hisParam
      rw [hparam part (mem_parts_of_item halternative hitem hpart)] at hisParam
      cases hisParam
    | param =>
      have hkind : (param.getD "").isEmpty = emptyParam := hgiven.self rfl
      rw [← hkind]
      exact Primitive.literal_decides (param.getD "")
    | template id argument =>
      have hid : id < program.rules.length := (hm.every hresolved).self
      refine matchRule_decides (List.getElem?_eq_getElem hid)
        fun alternative halternative item hitem => ?_
      apply ih (.ofItem (List.getElem?_eq_getElem hid) halternative hitem)
      intro part hpart hisParam
      rfl
    | negative inner =>
      -- there is no character, whatever the body does
      refine .mapValue Value.str ((Run.Ensures.any _).resume (fun _ _ _ => ⟨rfl, rfl⟩) fun _ _ => ?_)
      exact ⟨rfl, rfl⟩
    | attempt inner =>
      refine Combinator.attempt_ensures (ih (hm.ofBody rfl) hgiven.attempt captures) ?_
      intro failure hfailure
      exact ⟨rfl, hfailure.2⟩
    | group items important =>
      refine .mapValue (groupValue important) (sequence_decides (fun item hitem captures => ?_) [])
      exact ih (hm.ofMember hitem) (hgiven.group item hitem) captures
    | repeated inner repetition =>
      have hinner := ih (hm.ofBody rfl) hgiven.repeated captures
      have hmany := Combinator.many_decides hinner fuel
      cases repetition with
      | optional => exact .mapValue Value.ofOption (Combinator.optional_decides hinner)
      | any => exact .mapValue Value.list hmany
      | oneOrMore =>
        -- only the first attempt can fail
        rw [Matcher.isNullable]
        refine .mapValue Value.list (hinner.andThen fun first stop hstop => ?_)
        obtain ⟨rfl, hnullable⟩ := hstop
        refine .mapValue (first :: ·) (hmany.mono ?_ ?_)
        · intro _ stop hstop
          exact ⟨hstop.1, hnullable⟩
        · intro failure hfailure
          cases hfailure.2
    | look inner => cases hself
    | backtrack inner => cases hself
    | «variable» index => cases hself
    | external name transformer inner => cases hself

/-! ### Rules on the empty text -/

/-- Regular expressions have nothing to hide on the empty text. -/
theorem detectsEmptyIn_nil (m : Matcher) : m.DetectsEmptyIn [] := by
  cases m with
  | regex expression description =>
    intro start here hhere hlength
    obtain ⟨passed, hpassed, -⟩ := Text.dropBytes?_eq_some_iff.1 hhere
    obtain rfl : here = [] := (List.append_eq_nil_iff.1 hpassed.symm).2
    rw [Regex.matchesEmpty, hlength]
    rfl
  | _ => trivial

theorem WellScoped.isForwardIn_nil (h : program.WellScoped)
    (hinspected : program.Every fun m => m.isInspected = true) : program.IsForwardIn [] where
  backtrack := hinspected.mono fun m hm => by
    cases m with
    | backtrack inner => cases hm
    | _ => rfl
  external := hinspected.mono fun m hm => by
    cases m with
    | external name transformer inner => cases hm
    | _ => rfl
  regexes := fun _ _ part _ => detectsEmptyIn_nil part
  resolved := h.resolved

/-- A rule with some parameter succeeds on the empty text exactly if it has an entry for that kind
of parameter. -/
theorem nullable_iff_succeeds (hscoped : program.WellScoped)
    (hinspected : program.Every fun m => m.isInspected = true)
    (hchecked : program.checkLeftRecursion program.nullable = .ok ()) {id : Nat}
    {rule : CompiledRule} (hrule : program.rules[id]? = some rule) (param : Option String) :
    program.nullable.rule id (rule.givenEmpty param) = true ↔
      (program.matchRule (program.matcher (program.fuel [])) id param [] 0).Succeeds := by
  have hends := rule_ends (hscoped.isForwardIn_nil hinspected) hchecked
    (List.getElem?_eq_some_iff.1 hrule).1 param 0
  refine hends.succeeds_iff (matchRule_decides hrule fun alternative halternative item hitem => ?_)
  apply matcher_decides hinspected hscoped.resolved _ (.ofItem hrule halternative hitem)
  intro part hpart hisParam
  have htemplate := hscoped.isTemplate_of_isParam (List.mem_of_getElem? hrule)
    (mem_parts_of_item halternative hitem hpart) hisParam
  rw [CompiledRule.givenEmpty_of_template htemplate]

end Program

/-- On the empty text the tables say which rules of an accepted program succeed, if none of its
matchers looks ahead or back, repeats a capture or runs code of the host: a simple rule, a template
that is run on its own, and a template with any other literal. -/
theorem Grammar.compile_nullable_exact {grammar : Grammar} {options : CompileOptions}
    {program : Program} (hcompile : grammar.compile options = .ok program)
    (hinspected : program.Every fun m => m.isInspected = true)
    (hchecked : program.checkLeftRecursion program.nullable = .ok ()) {id : Nat}
    {rule : CompiledRule} (hrule : program.rules[id]? = some rule) :
    (rule.head.isTemplate = false →
      (program.nullable.rule id false = true ↔ (program.runRule id [] 0).Succeeds)) ∧
    (rule.head.isTemplate = true →
      (program.nullable.rule id true = true ↔ (program.runRule id [] 0).Succeeds) ∧
      ∀ argument, argument ≠ "" →
        (program.nullable.rule id false = true ↔
          (program.call (program.fuel []) id (some argument) [] 0).Succeeds)) := by
  have hexact := Program.nullable_iff_succeeds (Grammar.wellScoped_compile hcompile) hinspected
    hchecked hrule
  constructor
  · intro hsimple
    have hrun := hexact none
    rw [CompiledRule.givenEmpty_of_simple hsimple] at hrun
    exact hrun
  · intro htemplate
    constructor
    · have hrun := hexact none
      rw [CompiledRule.givenEmpty_of_template htemplate] at hrun
      exact hrun
    · intro argument hargument
      have hread : argument.isEmpty = false := by simpa using hargument
      have hcall := hexact (some argument)
      rw [CompiledRule.givenEmpty_of_template htemplate, Option.getD_some, hread] at hcall
      exact hcall

namespace Tail

/-- Letters up to an end, which is a template. -/
def grammar : Grammar :=
  { rules := [
      ⟨.simple "list", none, [
        ⟨[⟨.literal "x" {}, none, {}⟩, ⟨.name "list" {}, none, {}⟩], none, {}⟩,
        ⟨[⟨.template (some "end") "" {}, some .oneOrMore, {}⟩,
          ⟨.apply "not" (.any {}) {}, some .optional, {}⟩], none, {}⟩], {}⟩,
      ⟨.template (some "end") "s", none, [⟨[⟨.regex "y*" "" {}, none, {}⟩,
        ⟨.name "s" {}, none, {}⟩], none, {}⟩], {}⟩] }

def program : Program :=
  ⟨[⟨.simple "list", false, [⟨[.literal "x", .rule 0], none⟩,
      ⟨[.repeated (.template 1 "") .oneOrMore, .repeated (.negative .any) .optional], none⟩], {}⟩,
    ⟨.template (some "end") "s", true, [⟨[
      .regex (.seq (.assertion .textStart) (.star true (.chars (.range 'y' 'y')))) "/y*/",
      .param], none⟩], {}⟩]⟩

/-- The empty list is a list, and so is an end without a literal; any other literal is missed. -/
theorem tail_succeeds : grammar.compile {} = .ok program ∧
    (program.Every fun m => m.isInspected = true) ∧
    program.checkLeftRecursion program.nullable = .ok () ∧
    program.nullable = ⟨[true, false], [true, true]⟩ ∧
    (program.runRule 0 [] 0).Succeeds ∧ (program.runRule 1 [] 0).Succeeds ∧
    ∀ argument, argument ≠ "" →
      ¬(program.call (program.fuel []) 1 (some argument) [] 0).Succeeds := by
  have hcompile : grammar.compile {} = .ok program := rfl
  have hinspected : program.Every fun m => m.isInspected = true := by decide
  have hchecked : program.checkLeftRecursion program.nullable = .ok () := rfl
  have hlist := (Grammar.compile_nullable_exact hcompile hinspected hchecked
    (List.getElem?_eq_getElem (by decide : 0 < program.rules.length))).1 rfl
  obtain ⟨hempty, hother⟩ := (Grammar.compile_nullable_exact hcompile
    hinspected hchecked (List.getElem?_eq_getElem (by decide : 1 < program.rules.length))).2 rfl
  refine ⟨hcompile, hinspected, hchecked, by decide, hlist.1 (by decide), hempty.1 (by decide), ?_⟩
  intro argument hargument hsucceeds
  exact absurd ((hother argument hargument).2 hsucceeds) (by decide)

end Tail

end Peg
