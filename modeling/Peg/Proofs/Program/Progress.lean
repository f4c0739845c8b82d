/-
Peg/Proofs/Program/Progress.lean

Matches go forward, and those that read nothing were foreseen.

`Progress input start nullable stop` is what the analysis of nullable matchers
promises about a success: it stopped where it started and was nullable, or it
went forward and stayed within the text.  Progress composes along sequences,
where a sequence is nullable if all its items are.

`advances_progress` shows it for any amount of fuel and every matcher that
never stops before it starts.  A backward matcher may, and a function of the
host may stop anywhere, but inside a lookahead they do no harm.  The tables
are used where a rule is called: a rule that has read nothing has an
alternative of nullable items, so it has an entry.  Regular expressions have
to match the empty text if they match an empty piece of the input.

Without backward matchers and functions of the host all matchers are like
that (`matcher_progress`).
-/
import Peg.Proofs.Program.Ensures
import Peg.Proofs.Program.Nullable
import Peg.Proofs.Program.Parts
import Peg.Proofs.Regex.Length

namespace Peg

open Text

/-! ### Progress -/

/-- How a success that started at an offset may stop. -/
def Progress (input : List Char) (start : Nat) (nullable : Bool) (stop : Nat) : Prop :=
  (stop = start ∧ nullable = true) ∨ (start < stop ∧ stop ≤ size input)

namespace Progress

variable {input : List Char} {start middle stop : Nat} {nullable nullable' : Bool}

theorem stay (input : List Char) (start : Nat) : Progress input start true start :=
  .inl ⟨rfl, rfl⟩

/-- What advances advances, too, as a matcher that need not. -/
theorem mono (h : Progress input start nullable stop) (himp : nullable = true → nullable' = true) :
    Progress input start nullable' stop :=
  h.imp_left fun h => ⟨h.1, himp h.2⟩

/-- Two matches in a row stay in place only if both may. -/
theorem trans (h : Progress input start nullable middle)
    (h' : Progress input middle nullable' stop) :
    Progress input start (nullable && nullable') stop := by
  rcases h with ⟨rfl, rfl⟩ | ⟨hlt, hle⟩
  · rw [Bool.true_and]
    exact h'
  · refine .inr ?_
    rcases h' with ⟨rfl, -⟩ | ⟨hlt', hle'⟩
    · exact ⟨hlt, hle⟩
    · exact ⟨hlt.trans hlt', hle'⟩

/-- A text that is read ends within the input. -/
theorem ofCut (passed : List Char) {rest : List Char}
    (h : dropBytes? input start = some (passed ++ rest))
    (hnullable : passed = [] → nullable = true) :
    Progress input start nullable (start + size passed) := by
  have hsize := size_of_dropBytes? h
  rw [size_append] at hsize
  rcases passed with - | ⟨c, passed⟩
  · exact .inl ⟨rfl, hnullable rfl⟩
  · have := c.utf8Size_pos
    rw [size_cons] at hsize ⊢
    exact .inr ⟨by omega, by omega⟩

/-- What stops where it started is nullable. -/
theorem nullable_of_stays (h : Progress input start nullable start) : nullable = true := by
  rcases h with ⟨-, hnullable⟩ | ⟨hlt, -⟩
  · exact hnullable
  · exact absurd hlt (Nat.lt_irrefl start)

end Progress

/-! ### Primitive matchers -/

/-- A regular expression that matches an empty beginning of some text matches the empty text. -/
def Regex.DetectsEmpty (expression : Regex) : Prop :=
  ∀ text, expression.matchLength? text = some 0 → expression.matchesEmpty = true

/-- The same for the texts that are left somewhere in an input. -/
def Regex.DetectsEmptyIn (expression : Regex) (input : List Char) : Prop :=
  ∀ start here, dropBytes? input start = some here → expression.matchLength? here = some 0 →
    expression.matchesEmpty = true

theorem Outcome.map_eq_success {α β : Type} {f : α → β} {outcome : Outcome α} {value : β}
    {stop : Nat} (h : outcome.map f = .success value stop) :
    ∃ inner, outcome = .success inner stop ∧ value = f inner := by
  cases outcome with
  | success inner stop' =>
    simp only [map, Outcome.success.injEq] at h
    exact ⟨inner, by rw [h.2], h.1.symm⟩
  | failure failure => cases h
  | fault fault => cases h

namespace Primitive

variable {input : List Char} {start stop : Nat} {value : String}

/-- A literal succeeds where it is written. -/
theorem literal_eq_success {string : String} (h : literal string input start = .success value stop) :
    value = string ∧ stop = start + size string.toList ∧
      ∃ rest, dropBytes? input start = some (string.toList ++ rest) := by
  unfold literal at h
  split at h
  · rename_i rest hrest
    obtain ⟨here, hhere, hafter⟩ := Option.bind_eq_some_iff.1 hrest
    simp only [Outcome.success.injEq] at h
    exact ⟨h.1.symm, h.2.symm, rest, by rw [hhere, after?_eq_some_iff.1 hafter]⟩
  · cases h

/-- Any character is the next one. -/
theorem anyChar_eq_success (h : anyChar input start = .success value stop) :
    ∃ c rest, value = c.toString ∧ stop = start + c.utf8Size ∧
      dropBytes? input start = some (c :: rest) := by
  unfold anyChar at h
  split at h
  · rename_i c rest hrest
    simp only [Outcome.success.injEq] at h
    exact ⟨c, rest, h.1.symm, h.2.symm, hrest⟩
  · cases h

/-- A regular expression succeeds with the text that it finds next. -/
theorem regex_eq_success {expression : Regex} {description : String}
    (h : regex expression description input start = .success value stop) :
    ∃ here length, dropBytes? input start = some here ∧
      expression.matchLength? here = some length ∧ stop = start + length ∧
      value = String.ofList ((takeBytes? here length).getD []) := by
  unfold regex at h
  split at h
  · cases h
  · rename_i here hhere
    split at h
    · cases h
    · rename_i length hlength
      simp only [Outcome.success.injEq] at h
      exact ⟨here, length, hhere, hlength, h.2.symm, h.1.symm⟩

theorem literal_progress {string : String} (h : literal string input start = .success value stop) :
    Progress input start string.isEmpty stop := by
  obtain ⟨-, rfl, rest, hrest⟩ := literal_eq_success h
  exact .ofCut _ hrest fun hnil => by simpa using hnil

theorem anyChar_progress (h : anyChar input start = .success value stop) :
    Progress input start false stop := by
  obtain ⟨c, rest, -, rfl, hrest⟩ := anyChar_eq_success h
  exact .ofCut [c] hrest (by simp)

/-- A regular expression that detects when it matches nothing stays only if it matches the empty
text. -/
theorem regex_progress {expression : Regex} {description : String}
    (h : regex expression description input start = .success value stop)
    (hempty : expression.DetectsEmptyIn input) :
    Progress input start expression.matchesEmpty stop := by
  obtain ⟨here, length, hhere, hlength, rfl, -⟩ := regex_eq_success h
  obtain ⟨passed, rest, rfl, rfl⟩ := Regex.matchLength?_eq_some hlength
  exact .ofCut _ hhere fun hnil => hempty start _ hhere (by rw [hlength, hnil, size_nil])

/-- Blanks are within the text. -/
theorem skipBlank_progress (input : List Char) (start : Nat) :
    Progress input start true (skipBlank input start) := by
  unfold skipBlank
  split
  · rename_i here hhere
    rw [← here.takeWhile_append_dropWhile (p := isBlank)] at hhere
    exact .ofCut _ hhere fun _ => rfl
  · exact .stay input start

end Primitive

/-! ### Matchers -/

/-- Matchers that call the rules of a program: only templates look at a parameter, since a rule
that is called by its name gets none. -/
def Matcher.IsResolved (program : Program) : Matcher → Prop
  | .rule id => ∃ rule, program.rules[id]? = some rule ∧
      ∀ part ∈ rule.parts, part.isParam = false
  | .template id _ => id < program.rules.length
  | _ => True

/-- Matchers that only move forward and whose nullability is foreseen. -/
def Matcher.IsForward : Matcher → Prop
  | .backtrack _ | .external _ _ _ => False
  | .regex expression _ => expression.DetectsEmpty
  | _ => True

/-- Programs of such matchers. -/
structure Program.IsForward (program : Program) : Prop where
  forward : program.Every Matcher.IsForward
  resolved : program.Every (Matcher.IsResolved program)

/-- Matchers whose nullability is foreseen on an input, if they are regular expressions. -/
def Matcher.DetectsEmptyIn (input : List Char) : Matcher → Prop
  | .regex expression _ => expression.DetectsEmptyIn input
  | _ => True

mutual

/-- Whether a matcher never stops before it starts, when the rules of some kind do not.  What is
looked ahead at is taken back. -/
def Matcher.advances (forward : Nat → Bool) : Matcher → Bool
  | .backtrack _ | .external _ _ _ => false
  | .rule id | .template id _ => forward id
  | .attempt inner | .repeated inner _ => inner.advances forward
  | .group items _ => allAdvance forward items
  | .literal _ | .regex _ _ | .any | .param | .variable _ | .negative _ | .look _ => true

/-- Whether no matcher of a sequence stops before it starts. -/
def allAdvance (forward : Nat → Bool) : List Matcher → Bool
  | [] => true
  | item :: items => item.advances forward && allAdvance forward items

end

theorem allAdvance_iff {forward : Nat → Bool} {items : List Matcher} :
    allAdvance forward items = true ↔ ∀ item ∈ items, item.advances forward = true := by
  induction items with
  | nil => simp [allAdvance]
  | cons item items ih => simp [allAdvance, ih]

/-- Programs some rules of which never stop before they start, on an input on which nullability is
foreseen. -/
structure Program.AdvancesIn (program : Program) (forward : Nat → Bool) (input : List Char) :
    Prop where
  rules : ∀ id rule, program.rules[id]? = some rule → forward id = true →
    ∀ alternative ∈ rule.alternatives, allAdvance forward alternative.items = true
  regexes : program.Every (Matcher.DetectsEmptyIn input)
  resolved : program.Every (Matcher.IsResolved program)

/-- The kind of parameter that is assumed is the one there is, for a matcher that looks at it. -/
def Matcher.Fits (param : Option String) (emptyParam : Bool) (matcher : Matcher) : Prop :=
  matcher.Every fun part => part.isParam = true → param.getD "" = "" → emptyParam = true

/-- A rule that is called by its name does not look at a parameter. -/
theorem Matcher.IsResolved.fits {program : Program} {id : Nat}
    (h : (Matcher.rule id).IsResolved program) {rule : CompiledRule}
    (hrule : program.rules[id]? = some rule) {alternative : CompiledAlternative}
    (halternative : alternative ∈ rule.alternatives) {item : Matcher}
    (hitem : item ∈ alternative.items) (param : Option String) (emptyParam : Bool) :
    item.Fits param emptyParam := by
  obtain ⟨called, hcalled, hparam⟩ := h
  obtain rfl : called = rule := Option.some.inj (hcalled.symm.trans hrule)
  intro part hpart hisParam
  rw [hparam part (Program.mem_parts_of_item halternative hitem hpart)] at hisParam
  cases hisParam

namespace Program

variable {program : Program} {emptyParam : Bool} {param : Option String}
variable {input : List Char} {start : Nat} {step : Step}

/-- What a matcher that starts at an offset promises about its success. -/
abbrev Progresses (program : Program) (emptyParam : Bool) (input : List Char) (start : Nat)
    (m : Matcher) (run : Run Value) : Prop :=
  run.Ensures (fun _ stop => Progress input start (m.isNullable program.nullable emptyParam) stop)
    fun _ => True

/-- The items of a sequence make progress together. -/
theorem sequence_progress {items : List Matcher}
    (h : ∀ item ∈ items, ∀ captures start,
      program.Progresses emptyParam input start item (step ⟨param, captures⟩ item input start))
    (captures : List Capture) (start : Nat) :
    (Combinator.sequence (items.map fun item captures input start =>
      Run.andThen (step ⟨param, captures⟩ item input start) fun value stop =>
        .done (.success ⟨value, ⟨start, stop⟩⟩ stop)) captures input start).Ensures
      (fun _ stop => Progress input start (allNullable program.nullable emptyParam items) stop)
      fun _ => True := by
  induction items generalizing captures start with
  | nil => exact Progress.stay input start
  | cons item items ih =>
    have hitem := h item (List.mem_cons_self ..) captures start
    have hcapture : (Run.andThen (step ⟨param, captures⟩ item input start) fun value stop =>
        .done (.success (⟨value, ⟨start, stop⟩⟩ : Capture) stop)).Ensures
        (fun _ stop => Progress input start (item.isNullable program.nullable emptyParam) stop)
        fun _ => True :=
      hitem.andThen fun _ _ hstop => hstop
    -- a sequence stays only if each item does, so every item is nullable then
    refine hcapture.andThen fun capture stop hstop => ?_
    refine (ih (fun item hitem => h item (List.mem_cons_of_mem _ hitem)) _ stop).mono ?_
      fun _ _ => trivial
    intro _ last hlast
    exact hstop.trans hlast

/-- An alternative makes progress, and its rule has an entry if it reads nothing. -/
theorem matchAlternative_progress {id : Nat} {rule : CompiledRule}
    (hrule : program.rules[id]? = some rule) {alternative : CompiledAlternative}
    (halternative : alternative ∈ rule.alternatives)
    (h : ∀ item ∈ alternative.items, ∀ captures start,
      program.Progresses emptyParam input start item (step ⟨param, captures⟩ item input start)) :
    (matchAlternative step alternative param input start).Ensures
      (fun _ stop => Progress input start (program.nullable.rule id emptyParam) stop)
      fun _ => True := by
  refine (sequence_progress h [] start).andThen fun captures stop hstop => hstop.mono fun hall => ?_
  exact nullable_of_isNullable hrule (List.any_eq_true.2 ⟨alternative, halternative, hall⟩)

/-- A rule makes progress, and has an entry if it reads nothing. -/
theorem matchRule_progress {id : Nat}
    (h : ∀ rule, program.rules[id]? = some rule → ∀ alternative ∈ rule.alternatives,
      ∀ item ∈ alternative.items, ∀ captures start,
        program.Progresses emptyParam input start item (step ⟨param, captures⟩ item input start)) :
    (program.matchRule step id param input start).Ensures
      (fun _ stop => Progress input start (program.nullable.rule id emptyParam) stop)
      fun _ => True := by
  refine matchRule_ensures (fun rule hrule alternative halternative =>
    matchAlternative_progress hrule halternative (h rule hrule alternative halternative))
    fun rule hrule _ value stop hstop => ?_
  simpa using hstop.trans (Primitive.skipBlank_progress input stop)

/-- A matching of a text that may be empty. -/
theorem literal_ensures {string : String} {nullable : Bool}
    (h : string = "" → nullable = true) :
    (Run.primitive ((Primitive.literal string input start).map Value.str)).Ensures
      (fun _ stop => Progress input start nullable stop) fun _ => True := by
  refine .primitive (fun value stop hsuccess => ?_) fun _ _ => trivial
  obtain ⟨text, hliteral, -⟩ := Outcome.map_eq_success hsuccess
  exact (Primitive.literal_progress hliteral).mono fun hempty => h (String.isEmpty_iff.1 hempty)

/-- Every success of a matcher that does not stop before it starts makes progress. -/
theorem advances_progress {forward : Nat → Bool} (hprogram : program.AdvancesIn forward input)
    (fuel : Nat) {m : Matcher} (hm : program.Contains m) (hadvances : m.advances forward = true)
    (hfits : m.Fits param emptyParam) (captures : List Capture) (start : Nat) :
    program.Progresses emptyParam input start m
      (program.matcher fuel ⟨param, captures⟩ m input start) := by
  induction fuel generalizing m param emptyParam captures start with
  | zero => trivial
  | succ fuel ih =>
    have hitems : ∀ {id : Nat} {rule : CompiledRule}, program.rules[id]? = some rule →
        forward id = true → ∀ alternative ∈ rule.alternatives, ∀ item ∈ alternative.items,
          item.advances forward = true := fun hrule hid alternative halternative =>
      allAdvance_iff.1 (hprogram.rules _ _ hrule hid alternative halternative)
    cases m with
    | literal string => exact literal_ensures fun hempty => by simp [Matcher.isNullable, hempty]
    | regex expression description =>
      refine .primitive (fun value stop hsuccess => ?_) fun _ _ => trivial
      obtain ⟨text, hregex, rfl⟩ := Outcome.map_eq_success hsuccess
      exact Primitive.regex_progress hregex (hm.every hprogram.regexes).self
    | any =>
      refine .primitive (fun value stop hsuccess => ?_) fun _ _ => trivial
      obtain ⟨text, hany, rfl⟩ := Outcome.map_eq_success hsuccess
      exact Primitive.anyChar_progress hany
    | rule id =>
      refine matchRule_progress fun rule hrule alternative halternative item hitem => ?_
      exact ih (.ofItem hrule halternative hitem)
        (hitems hrule hadvances alternative halternative item hitem)
        ((hm.every hprogram.resolved).self.fits hrule halternative hitem _ _)
    | param => exact literal_ensures fun hempty => hfits.self rfl hempty
    | «variable» index => exact literal_ensures fun _ => rfl
    | template id argument =>
      refine matchRule_progress fun rule hrule alternative halternative item hitem => ?_
      refine ih (.ofItem hrule halternative hitem)
        (hitems hrule hadvances alternative halternative item hitem) fun part hpart _ hempty => ?_
      simpa using hempty
    | negative inner =>
      refine .mapValue Value.str ((Run.Ensures.any _).resume (fun _ _ _ => trivial) fun _ _ => ?_)
      split
      · rename_i c rest hrest
        exact Progress.ofCut [c] hrest (by simp)
      · trivial
    | look inner =>
      -- wherever the body stops, the lookahead stops where it started
      exact (Run.Ensures.any _).resume (fun _ _ _ => Progress.stay input start) fun _ _ => trivial
    | attempt inner =>
      exact Combinator.attempt_ensures
        (ih (hm.ofBody rfl) hadvances hfits.attempt captures start) fun _ h => h
    | backtrack inner => cases hadvances
    | external name transformer inner => cases hadvances
    | group items important =>
      refine .mapValue (groupValue important) (sequence_progress (fun item hitem captures start =>
        ih (hm.ofMember hitem) (allAdvance_iff.1 hadvances item hitem) (hfits.group item hitem)
          captures start) [] start)
    | repeated inner repetition =>
      have hinner := fun start =>
        ih (hm.ofBody rfl) hadvances hfits.repeated captures start
      have hmany : ∀ start, (Combinator.many fuel (program.matcher fuel ⟨param, captures⟩ inner)
          input start).Ensures (fun _ stop => Progress input start true stop) fun _ => True := by
        intro start
        refine Combinator.many_ensures (I := fun _ => True)
          (P := fun start _ stop => Progress input start true stop)
          (fun start _ => .stay input start) (fun start _ => ?_) trivial
        refine (hinner start).mono (fun _ stop hstop => ⟨trivial, fun _ last hlast => ?_⟩)
          fun _ _ => trivial
        exact (hstop.trans hlast).mono fun _ => rfl
      cases repetition with
      | optional =>
        refine .mapValue Value.ofOption (Combinator.optional_ensures
          (P := fun _ stop => Progress input start true stop) ?_ (.stay input start))
        exact (hinner start).mono (fun _ _ hstop => hstop.mono fun _ => rfl) fun _ _ => trivial
      | any => exact .mapValue Value.list (hmany start)
      | oneOrMore =>
        refine .mapValue Value.list ((hinner start).andThen fun first stop hstop => ?_)
        refine .mapValue (first :: ·) ((hmany stop).mono (fun _ last hlast => ?_) fun _ _ => trivial)
        simpa [Matcher.isNullable] using hstop.trans hlast

end Program

/-! ### Forward programs -/

/-- Programs without backward matchers and functions of the host, on an input on which nullability
is foreseen. -/
structure Program.IsForwardIn (program : Program) (input : List Char) : Prop where
  backtrack : program.Every fun m => m.isBacktrack = false
  external : program.Every fun m => m.isExternal = false
  regexes : program.Every (Matcher.DetectsEmptyIn input)
  resolved : program.Every (Matcher.IsResolved program)

mutual

/-- Without backward matchers and functions of the host every matcher advances. -/
theorem Matcher.advances_of_every : ∀ m : Matcher, (m.Every fun part => part.isBacktrack = false) →
    (m.Every fun part => part.isExternal = false) → m.advances (fun _ => true) = true
  | .literal _, _, _ | .regex _ _, _, _ | .any, _, _ | .rule _, _, _ | .param, _, _
  | .variable _, _, _ | .template _ _, _, _ | .negative _, _, _ | .look _, _, _ => rfl
  | .attempt inner, h, h' => inner.advances_of_every h.attempt h'.attempt
  | .repeated inner _, h, h' => inner.advances_of_every h.repeated h'.repeated
  | .backtrack _, h, _ => nomatch h.self
  | .external _ _ _, _, h' => nomatch h'.self
  | .group items _, h, h' => allAdvance_of_every items h.group h'.group

theorem allAdvance_of_every : ∀ items : List Matcher,
    (∀ item ∈ items, item.Every fun part => part.isBacktrack = false) →
    (∀ item ∈ items, item.Every fun part => part.isExternal = false) →
    allAdvance (fun _ => true) items = true
  | [], _, _ => rfl
  | item :: items, h, h' => by
    obtain ⟨hitem, hitems⟩ := List.forall_mem_cons.1 h
    obtain ⟨hitem', hitems'⟩ := List.forall_mem_cons.1 h'
    rw [allAdvance, item.advances_of_every hitem hitem', allAdvance_of_every items hitems hitems']
    rfl

end

namespace Program

variable {program : Program} {emptyParam : Bool} {param : Option String} {input : List Char}

theorem IsForwardIn.advancesIn (h : program.IsForwardIn input) :
    program.AdvancesIn (fun _ => true) input where
  rules _ _ hrule _ alternative halternative := allAdvance_of_every alternative.items
    (fun _ hitem => h.backtrack.ofItem hrule halternative hitem)
    (fun _ hitem => h.external.ofItem hrule halternative hitem)
  regexes := h.regexes
  resolved := h.resolved

/-- Every success of a matcher of such a program makes progress. -/
theorem IsForwardIn.progress (h : program.IsForwardIn input) (fuel : Nat) {m : Matcher}
    (hm : program.Contains m) (hfits : m.Fits param emptyParam) (captures : List Capture)
    (start : Nat) :
    program.Progresses emptyParam input start m
      (program.matcher fuel ⟨param, captures⟩ m input start) :=
  advances_progress h.advancesIn fuel hm
    (m.advances_of_every (hm.every h.backtrack) (hm.every h.external)) hfits captures start

theorem IsForward.isForwardIn (h : program.IsForward) (input : List Char) :
    program.IsForwardIn input where
  backtrack := h.forward.mono fun m hm => by
    cases m with
    | backtrack inner => exact hm.elim
    | _ => rfl
  external := h.forward.mono fun m hm => by
    cases m with
    | external name transformer inner => exact hm.elim
    | _ => rfl
  regexes := h.forward.mono fun m hm => by
    cases m with
    | regex expression description => exact fun _ here _ hlength => hm here hlength
    | _ => trivial
  resolved := h.resolved

/-- A match stays where it starts only if its matcher is nullable. Otherwise it advances, within the
text. -/
theorem matcher_progress (hprogram : program.IsForward) (fuel : Nat) {m : Matcher}
    (hm : program.Contains m) (hfits : m.Fits param emptyParam)
    (captures : List Capture) (input : List Char) (start : Nat) :
    program.Progresses emptyParam input start m
      (program.matcher fuel ⟨param, captures⟩ m input start) :=
  (hprogram.isForwardIn input).progress fuel hm hfits captures start

end Program

end Peg
