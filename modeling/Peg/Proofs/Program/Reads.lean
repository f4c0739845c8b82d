/-
Peg/Proofs/Program/Reads.lean

What a matcher reads, said of the text and not of the run.

A run has fuel, a scope, events, offsets into the whole text and values with
spans.  To compute what a program makes of a text none of that matters, as
long as the matchers do not refer to parameters and captures:

    program.Reads m word rest value
      before `rest` the matcher reads `word` and gives `value`, spans aside
    program.Fails m word rest
      the matcher fails at the place after `word`

Fuel is dealt with by asking for these outcomes for all sufficiently large
amounts of it.  There is one lemma for each kind of matcher, and the lemmas
for rules choose an alternative: the ones before it have to refuse the text,
which means to fail before the first character.
-/
import Mathlib.Order.Filter.AtTopBot.Basic
import Peg.Program.Run
import Peg.Proofs.Run.Outcome
import Peg.Proofs.Text.Offset
import Peg.Proofs.Value.Shape

namespace Peg

open Text Filter

/-! ### Constant texts -/

namespace Primitive

variable {string : String} {input text rest : List Char} {start : Nat}

/-- A constant text is read where it comes next. -/
theorem literal_of_append (h : dropBytes? input start = some (string.toList ++ rest)) :
    literal string input start = .success string (start + size string.toList) := by
  have hafter : after? string.toList (string.toList ++ rest) = some rest :=
    after?_eq_some_iff.2 rfl
  simp only [literal, h, Option.bind_some, hafter]

/-- It is refused where it does not. -/
theorem literal_of_not_prefix (htext : dropBytes? input start = some text)
    (h : ¬ string.toList <+: text) : literal string input start = .failure ⟨string, start⟩ := by
  have hafter : after? string.toList text = none := by
    rcases hafter : after? string.toList text with - | rest
    · rfl
    · exact absurd ⟨rest, (after?_eq_some_iff.1 hafter).symm⟩ h
  simp only [literal, htext, Option.bind_some, hafter]

end Primitive

/-! ### Outcomes with enough fuel -/

namespace Program

/-- With enough fuel, whatever the scope, this is the outcome. -/
def Gives (program : Program) (m : Matcher) (input : List Char) (start : Nat)
    (outcome : Outcome Value) : Prop :=
  ∀ᶠ fuel in atTop, ∀ scope, (program.matcher fuel scope m input start).outcome? = some outcome

/-- Before the rest of the text the matcher reads a word and gives a value. -/
def Reads (program : Program) (m : Matcher) (word rest : List Char) (value : Value) : Prop :=
  ∀ input start, dropBytes? input start = some (word ++ rest) →
    ∃ value', value'.eraseSpans = value ∧
      program.Gives m input start (.success value' (start + Text.size word))

/-- The matcher fails after a word. -/
def Fails (program : Program) (m : Matcher) (word rest : List Char) : Prop :=
  ∀ input start, dropBytes? input start = some (word ++ rest) →
    ∃ expected, program.Gives m input start (.failure ⟨expected, start + Text.size word⟩)

/-- The matcher does not apply to a text. -/
abbrev Refuses (program : Program) (m : Matcher) (text : List Char) : Prop :=
  program.Fails m [] text

variable {program : Program} {m : Matcher} {word word' rest text : List Char} {value : Value}

/-- It is enough to look at fuels with something left. -/
theorem Gives.of_step {input : List Char} {start : Nat} {outcome : Outcome Value}
    (h : ∀ᶠ fuel in atTop, ∀ scope,
      (program.matcher (fuel + 1) scope m input start).outcome? = some outcome) :
    program.Gives m input start outcome := by
  obtain ⟨least, h⟩ := eventually_atTop.1 h
  refine eventually_atTop.2 ⟨least + 1, fun fuel hfuel => ?_⟩
  obtain ⟨fuel, rfl⟩ := Nat.exists_eq_add_one_of_ne_zero (by omega : fuel ≠ 0)
  exact h fuel (by omega)

/-! ### Texts -/

theorem outcome?_literal_of_append {string : String} {input : List Char} {start fuel : Nat}
    {scope : Scope} (h : dropBytes? input start = some (string.toList ++ rest)) :
    (program.matcher (fuel + 1) scope (.literal string) input start).outcome? =
      some (.success (.str string) (start + Text.size string.toList)) := by
  rw [matcher, Run.outcome?_primitive, Primitive.literal_of_append h]
  rfl

theorem outcome?_literal_of_not_prefix {string : String} {input : List Char} {start fuel : Nat}
    {scope : Scope} (htext : dropBytes? input start = some text) (h : ¬ string.toList <+: text) :
    (program.matcher (fuel + 1) scope (.literal string) input start).outcome? =
      some (.failure ⟨string, start⟩) := by
  rw [matcher, Run.outcome?_primitive, Primitive.literal_of_not_prefix htext h]
  rfl

/-- A literal reads its text. -/
theorem reads_literal (program : Program) (string : String) (rest : List Char) :
    program.Reads (.literal string) string.toList rest (.str string) := by
  intro input start hinput
  exact ⟨.str string, rfl, .of_step (.of_forall fun fuel scope => outcome?_literal_of_append hinput)⟩

/-- And nothing else. -/
theorem refuses_literal {string : String} (h : ¬ string.toList <+: text) :
    program.Refuses (.literal string) text := by
  intro input start hinput
  exact ⟨string, .of_step (.of_forall fun fuel scope => outcome?_literal_of_not_prefix hinput h)⟩

/-- A regular expression reads its preferred match. -/
theorem reads_regex {expression : Regex} {description : String}
    (h : expression.matchLength? (word ++ rest) = some (Text.size word)) :
    program.Reads (.regex expression description) word rest (.str (String.ofList word)) := by
  intro input start hinput
  refine ⟨.str (String.ofList word), rfl, .of_step (.of_forall fun fuel scope => ?_)⟩
  have houtcome : Primitive.regex expression description input start =
      .success (String.ofList word) (start + Text.size word) := by
    simp only [Primitive.regex, hinput, h, takeBytes?_append, Option.getD_some]
  rw [matcher, Run.outcome?_primitive, houtcome]
  rfl

/-- Without a match it fails where it starts. -/
theorem refuses_regex {expression : Regex} {description : String}
    (h : expression.matchLength? text = none) :
    program.Refuses (.regex expression description) text := by
  intro input start hinput
  refine ⟨description, .of_step (.of_forall fun fuel scope => ?_)⟩
  have houtcome : Primitive.regex expression description input start =
      .failure ⟨description, start⟩ := by
    simp only [Primitive.regex, hinput, List.nil_append, h]
  rw [matcher, Run.outcome?_primitive, houtcome]
  rfl

/-! ### Lookahead -/

/-- A lookahead reads nothing, and what it sees is still to be read. -/
theorem reads_look (h : program.Reads m word rest value) :
    program.Reads (.look m) [] (word ++ rest) value := by
  intro input start hinput
  obtain ⟨value', hvalue, hgives⟩ := h input start hinput
  refine ⟨value', hvalue, .of_step (hgives.mono fun fuel hfuel scope => ?_)⟩
  rw [matcher, Combinator.look, Run.outcome?_resume (hfuel scope)]
  rfl

/-- Lookahead turns any failure into a refusal. -/
theorem refuses_look (h : program.Fails m word rest) :
    program.Refuses (.look m) (word ++ rest) := by
  intro input start hinput
  obtain ⟨expected, hgives⟩ := h input start hinput
  refine ⟨"<look>", .of_step (hgives.mono fun fuel hfuel scope => ?_)⟩
  rw [matcher, Combinator.look, Run.outcome?_resume_failure (hfuel scope)]
  rfl

/-- A negation reads one character, where the inner matcher fails on the spot. -/
theorem reads_negative {c : Char} (h : program.Refuses m (c :: rest)) :
    program.Reads (.negative m) [c] rest (.str c.toString) := by
  intro input start hinput
  obtain ⟨expected, hgives⟩ := h input start hinput
  refine ⟨.str c.toString, rfl, .of_step (hgives.mono fun fuel hfuel scope => ?_)⟩
  rw [matcher, Run.outcome?_mapValue, Combinator.negative,
    Run.outcome?_resume_failure (hfuel scope)]
  simp only [hinput]
  rfl

/-- Where that matches, it fails. -/
theorem refuses_negative (h : program.Reads m word rest value) :
    program.Refuses (.negative m) (word ++ rest) := by
  intro input start hinput
  obtain ⟨value', -, hgives⟩ := h input start hinput
  refine ⟨"<not>", .of_step (hgives.mono fun fuel hfuel scope => ?_)⟩
  rw [matcher, Run.outcome?_mapValue, Combinator.negative, Run.outcome?_resume (hfuel scope)]
  rfl

/-! ### Repetitions -/

/-- An optional match is made if it can be. -/
theorem reads_optional (h : program.Reads m word rest value) :
    program.Reads (.repeated m .optional) word rest value := by
  intro input start hinput
  obtain ⟨value', hvalue, hgives⟩ := h input start hinput
  refine ⟨value', hvalue, .of_step (hgives.mono fun fuel hfuel scope => ?_)⟩
  rw [matcher, Run.outcome?_mapValue, Combinator.outcome?_optional (hfuel scope)]
  rfl

/-- If not, nothing is read. -/
theorem reads_optional_absent (h : program.Refuses m text) :
    program.Reads (.repeated m .optional) [] text .absent := by
  intro input start hinput
  obtain ⟨expected, hgives⟩ := h input start hinput
  refine ⟨.absent, rfl, .of_step (hgives.mono fun fuel hfuel scope => ?_)⟩
  rw [matcher, Run.outcome?_mapValue, Combinator.outcome?_optional_refused (hfuel scope) rfl]
  rfl

/-- Several matches one after the other, up to a refusal.  Each of them reads something. -/
inductive ReadsMany (program : Program) (m : Matcher) :
    List Char → List Char → List Value → Prop where
  | nil {rest : List Char} (h : program.Refuses m rest) : ReadsMany program m [] rest []
  | cons {word words rest : List Char} {value : Value} {values : List Value}
      (h : program.Reads m word (words ++ rest) value) (hne : word ≠ [])
      (hmany : ReadsMany program m words rest values) :
      ReadsMany program m (word ++ words) rest (value :: values)

/-- A repetition reads the words one by one, by induction on them; one more round than words is
enough. -/
theorem ReadsMany.outcome {values : List Value} (h : ReadsMany program m word rest values) :
    ∀ input start, dropBytes? input start = some (word ++ rest) →
      ∃ values' : List Value, values'.map Value.eraseSpans = values ∧
        ∀ᶠ fuel in atTop, ∀ rounds, values.length < rounds → ∀ scope,
          (Combinator.many rounds (program.matcher fuel scope m) input start).outcome? =
            some (.success values' (start + Text.size word)) := by
  induction h with
  | nil h =>
    intro input start hinput
    obtain ⟨expected, hgives⟩ := h input start hinput
    refine ⟨[], rfl, hgives.mono fun fuel hfuel rounds hrounds scope => ?_⟩
    obtain ⟨rounds, rfl⟩ := Nat.exists_eq_add_one_of_ne_zero (by omega : rounds ≠ 0)
    exact Combinator.outcome?_many_refused (hfuel scope) rfl
  | cons h hne hmany ih =>
    rename_i word words rest value values
    intro input start hinput
    rw [List.append_assoc] at hinput
    obtain ⟨value', hvalue, hgives⟩ := h input start hinput
    obtain ⟨values', hvalues, hothers⟩ := ih input (start + Text.size word) (dropBytes?_add hinput)
    refine ⟨value' :: values', by rw [List.map_cons, hvalue, hvalues], ?_⟩
    filter_upwards [hgives, hothers] with fuel hfuel hmany rounds hrounds scope
    rw [List.length_cons] at hrounds
    obtain ⟨rounds, rfl⟩ := Nat.exists_eq_add_one_of_ne_zero (by omega : rounds ≠ 0)
    have hmoved : start + Text.size word ≠ start := by
      have : Text.size word ≠ 0 := fun hzero => hne (size_eq_zero_iff.1 hzero)
      omega
    rw [Combinator.outcome?_many (hfuel scope) hmoved (hmany rounds (by omega) scope),
      size_append, Nat.add_assoc]

/-- So any number of matches is read, none included. -/
theorem reads_any {values : List Value} (h : ReadsMany program m word rest values) :
    program.Reads (.repeated m .any) word rest (.list values) := by
  intro input start hinput
  obtain ⟨values', hvalues, hmany⟩ := h.outcome input start hinput
  refine ⟨.list values', by rw [Value.eraseSpans, Value.eraseSpansOfAll_eq_map, hvalues], ?_⟩
  refine .of_step ?_
  filter_upwards [hmany, eventually_gt_atTop values.length] with fuel hmany hfuel scope
  rw [matcher, Run.outcome?_mapValue, hmany fuel hfuel scope]
  rfl

/-- At least one match is read likewise, the first apart from the others. -/
theorem reads_oneOrMore {words : List Char} {values : List Value}
    (h : program.Reads m word (words ++ rest) value)
    (hmany : ReadsMany program m words rest values) :
    program.Reads (.repeated m .oneOrMore) (word ++ words) rest (.list (value :: values)) := by
  intro input start hinput
  rw [List.append_assoc] at hinput
  obtain ⟨value', hvalue, hgives⟩ := h input start hinput
  obtain ⟨values', hvalues, hothers⟩ := hmany.outcome input _ (dropBytes?_add hinput)
  refine ⟨.list (value' :: values'), ?_, .of_step ?_⟩
  · rw [Value.eraseSpans, Value.eraseSpansOfAll_eq_map, List.map_cons, hvalue, hvalues]
  · filter_upwards [hgives, hothers, eventually_gt_atTop values.length] with fuel hfuel hmany
      hlength scope
    rw [matcher, Run.outcome?_mapValue,
      Combinator.outcome?_many1 (hfuel scope) (hmany fuel hlength scope), size_append,
      Nat.add_assoc]
    rfl

/-! ### Sequences -/

/-- Items read one after the other. -/
inductive ReadsAll (program : Program) :
    List Matcher → List Char → List Char → List Value → Prop where
  | nil (rest : List Char) : ReadsAll program [] [] rest []
  | cons {m : Matcher} {items : List Matcher} {word words rest : List Char} {value : Value}
      {values : List Value} (h : program.Reads m word (words ++ rest) value)
      (hitems : ReadsAll program items words rest values) :
      ReadsAll program (m :: items) (word ++ words) rest (value :: values)

/-- Items of which some are read before one fails. -/
inductive FailsAll (program : Program) : List Matcher → List Char → List Char → Prop where
  | here {m : Matcher} {items : List Matcher} {word rest : List Char}
      (h : program.Fails m word rest) : FailsAll program (m :: items) word rest
  | after {m : Matcher} {items : List Matcher} {word words rest : List Char} {value : Value}
      (h : program.Reads m word (words ++ rest) value)
      (hitems : FailsAll program items words rest) :
      FailsAll program (m :: items) (word ++ words) rest

/-- The items of a sequence as they are run. -/
def itemsOf (step : Step) (items : List Matcher) (param : Option String) :
    List (List Capture → Matching Capture) :=
  items.map fun item captures input start =>
    Run.andThen (step ⟨param, captures⟩ item input start) fun value stop =>
      .done (.success ⟨value, ⟨start, stop⟩⟩ stop)

/-- The items of a sequence, as functions of what came before. -/
theorem matchItems_eq (step : Step) (items : List Matcher) (param : Option String) :
    matchItems step items param = Combinator.sequence (itemsOf step items param) [] := rfl

variable {items : List Matcher} {values : List Value}

section Items

variable {step : Step} {param : Option String} {previous : List Capture} {input : List Char}
variable {start : Nat}

/-- Once the first item has matched, the others go on with what it has captured. -/
theorem outcome?_itemsOf_cons {stop : Nat}
    (h : (step ⟨param, previous⟩ m input start).outcome? = some (.success value stop)) :
    (Combinator.sequence (itemsOf step (m :: items) param) previous input start).outcome? =
      (Combinator.sequence (itemsOf step items param) (previous ++ [⟨value, ⟨start, stop⟩⟩]) input
        stop).outcome? := by
  have hcapture : (Run.andThen (step ⟨param, previous⟩ m input start)
      fun value stop => .done (.success (⟨value, ⟨start, stop⟩⟩ : Capture) stop)).outcome? =
      some (.success ⟨value, ⟨start, stop⟩⟩ stop) := by
    rw [Run.outcome?_andThen h]
    rfl
  rw [itemsOf, List.map_cons, Combinator.sequence, Run.outcome?_andThen hcapture]
  rfl

/-- A sequence fails where its first item does. -/
theorem outcome?_itemsOf_refused {failure : Failure}
    (h : (step ⟨param, previous⟩ m input start).outcome? = some (.failure failure)) :
    (Combinator.sequence (itemsOf step (m :: items) param) previous input start).outcome? =
      some (.failure failure) := by
  rw [itemsOf, List.map_cons, Combinator.sequence]
  apply Run.outcome?_andThen_failure
  apply Run.outcome?_andThen_failure h

end Items

/-- Items read their words one after the other, by induction on them. -/
theorem ReadsAll.outcome (h : ReadsAll program items word rest values) :
    ∀ input start, dropBytes? input start = some (word ++ rest) →
      ∃ captures : List Capture,
        (captures.map fun capture => capture.value.eraseSpans) = values ∧
        ∀ᶠ fuel in atTop, ∀ param previous,
          (Combinator.sequence (itemsOf (program.matcher fuel) items param) previous
            input start).outcome? = some (.success (previous ++ captures) (start + Text.size word)) := by
  induction h with
  | nil rest =>
    intro input start hinput
    refine ⟨[], rfl, .of_forall fun fuel param previous => ?_⟩
    rw [List.append_nil]
    rfl
  | cons h hitems ih =>
    rename_i m items word words rest value values
    intro input start hinput
    rw [List.append_assoc] at hinput
    obtain ⟨value', hvalue, hgives⟩ := h input start hinput
    obtain ⟨captures, hcaptures, hothers⟩ := ih input _ (dropBytes?_add hinput)
    -- the capture of the first item is there for the items after it
    let capture : Capture := ⟨value', ⟨start, start + Text.size word⟩⟩
    refine ⟨capture :: captures, by rw [List.map_cons, hcaptures, hvalue], ?_⟩
    filter_upwards [hgives, hothers] with fuel hfuel hitems param previous
    rw [outcome?_itemsOf_cons (hfuel _), hitems param (previous ++ [capture]), List.append_assoc,
      List.singleton_append, size_append, Nat.add_assoc]

/-- Or they do up to one that fails where it is. -/
theorem FailsAll.outcome (h : FailsAll program items word rest) :
    ∀ input start, dropBytes? input start = some (word ++ rest) →
      ∃ expected, ∀ᶠ fuel in atTop, ∀ param previous,
        (Combinator.sequence (itemsOf (program.matcher fuel) items param) previous
          input start).outcome? = some (.failure ⟨expected, start + Text.size word⟩) := by
  induction h with
  | here h =>
    intro input start hinput
    obtain ⟨expected, hgives⟩ := h input start hinput
    exact ⟨expected, hgives.mono fun fuel hfuel param previous => outcome?_itemsOf_refused (hfuel _)⟩
  | after h hitems ih =>
    rename_i m items word words rest value
    intro input start hinput
    rw [List.append_assoc] at hinput
    obtain ⟨value', -, hgives⟩ := h input start hinput
    obtain ⟨expected, hothers⟩ := ih input _ (dropBytes?_add hinput)
    refine ⟨expected, ?_⟩
    filter_upwards [hgives, hothers] with fuel hfuel hitems param previous
    rw [outcome?_itemsOf_cons (hfuel _), hitems param _, size_append, Nat.add_assoc]

/-! ### Rules -/

end Program

/-- The value of an alternative without spans. -/
def CompiledAlternative.shape (alternative : CompiledAlternative) (values : List Value)
    (word : List Char) : Value :=
  match alternative.mapper with
  | some mapper => mapper.shape values word
  | none => .ofItems values

/-- Whether the value of an alternative does not depend on where it matched. -/
def CompiledAlternative.isPositionless (alternative : CompiledAlternative) : Bool :=
  alternative.mapper.all MapperExpr.isPositionless

namespace Program

variable {program : Program} {word rest : List Char} {values : List Value}
  {alternative : CompiledAlternative}

/-- An alternative gives the value that its mapper has, if this does not ask for offsets. -/
theorem ReadsAll.outcome_alternative (h : ReadsAll program alternative.items word rest values)
    (hpositionless : alternative.isPositionless = true) {input : List Char} {start : Nat}
    (hinput : dropBytes? input start = some (word ++ rest)) :
    ∃ value', value'.eraseSpans = alternative.shape values word ∧
      ∀ᶠ fuel in atTop, ∀ param,
        (matchAlternative (program.matcher fuel) alternative param input start).outcome? =
          some (.success value' (start + Text.size word)) := by
  obtain ⟨captures, hcaptures, hitems⟩ := h.outcome input start hinput
  obtain ⟨items, mapper⟩ := alternative
  cases mapper with
  | none =>
    refine ⟨.ofItems (captures.map Capture.value), ?_, hitems.mono fun fuel hfuel param => ?_⟩
    · rw [Value.eraseSpans_ofItems, List.map_map, CompiledAlternative.shape, ← hcaptures]
      rfl
    · rw [matchAlternative, matchItems_eq, Run.outcome?_andThen (hfuel param [])]
      rfl
  | some mapper =>
    have hword := slice?_of_dropBytes? hinput
    refine ⟨mapper.evaluate captures input ⟨start, start + Text.size word⟩, ?_,
      hitems.mono fun fuel hfuel param => ?_⟩
    · rw [CompiledAlternative.shape, ← hcaptures]
      exact MapperExpr.eraseSpans_evaluate hword mapper hpositionless
    · rw [matchAlternative, matchItems_eq, Run.outcome?_andThen (hfuel param [])]
      rfl

/-- An alternative fails with its first item that does. -/
theorem FailsAll.outcome_alternative (h : FailsAll program alternative.items word rest)
    {input : List Char} {start : Nat} (hinput : dropBytes? input start = some (word ++ rest)) :
    ∃ expected, ∀ᶠ fuel in atTop, ∀ param,
      (matchAlternative (program.matcher fuel) alternative param input start).outcome? =
        some (.failure ⟨expected, start + Text.size word⟩) := by
  obtain ⟨expected, hitems⟩ := h.outcome input start hinput
  refine ⟨expected, hitems.mono fun fuel hfuel param => ?_⟩
  rw [matchAlternative, matchItems_eq]
  exact Run.outcome?_andThen_failure (hfuel param [])

variable {id : Nat} {rule : CompiledRule} {skipped others : List CompiledAlternative}

/-- A rule is the choice of its alternatives, if it skips nothing after them. -/
theorem outcome?_matchRule (hrule : program.rules[id]? = some rule)
    (hskips : rule.skipsBlank = false) (step : Step) (param : Option String) (input : List Char)
    (start : Nat) :
    (program.matchRule step id param input start).outcome? =
      (Combinator.choice (rule.alternatives.map fun alternative =>
        matchAlternative step alternative param) input start).outcome? := by
  have hfinish : ∀ outcome, finishRule rule input outcome = outcome := by
    intro outcome
    cases outcome with
    | success value stop => rw [finishRule, hskips, if_neg Bool.false_ne_true]
    | failure failure => rfl
    | fault fault => rfl
  rcases hchoice : Combinator.choice (rule.alternatives.map fun alternative =>
    matchAlternative step alternative param) input start with - | ⟨events, outcome⟩
  · simp only [matchRule, hrule, hchoice]
  · simp only [matchRule, hrule, hchoice, hfinish, Run.outcome?, Option.map_some]

/-- Alternatives that refuse the text are passed over. -/
theorem outcome?_skipped {input : List Char} {start : Nat} {text : List Char}
    (hinput : dropBytes? input start = some text)
    (hskipped : ∀ alternative ∈ skipped, FailsAll program alternative.items [] text) :
    ∀ᶠ fuel in atTop, ∀ param, ∀ alternative ∈ skipped, ∃ expected,
      (matchAlternative (program.matcher fuel) alternative param input start).outcome? =
        some (.failure ⟨expected, start⟩) := by
  induction skipped with
  | nil => exact .of_forall fun _ _ => nofun
  | cons first skipped ih =>
    obtain ⟨hfirst, hskipped⟩ := List.forall_mem_cons.1 hskipped
    obtain ⟨expected, hfirst⟩ := hfirst.outcome_alternative hinput
    filter_upwards [hfirst, ih hskipped] with fuel hfuel hothers param
    exact List.forall_mem_cons.2 ⟨⟨expected, hfuel param⟩, hothers param⟩

/-- The first alternative that does not refuse the text. -/
theorem reads_rule (hrule : program.rules[id]? = some rule) (hskips : rule.skipsBlank = false)
    (halternatives : rule.alternatives = skipped ++ alternative :: others)
    (hskipped : ∀ alternative ∈ skipped, FailsAll program alternative.items [] (word ++ rest))
    (h : ReadsAll program alternative.items word rest values)
    (hpositionless : alternative.isPositionless = true) :
    program.Reads (.rule id) word rest (alternative.shape values word) := by
  intro input start hinput
  obtain ⟨value', hvalue, hchosen⟩ := h.outcome_alternative hpositionless hinput
  refine ⟨value', hvalue, .of_step ?_⟩
  filter_upwards [hchosen, outcome?_skipped hinput hskipped] with fuel hfuel hothers scope
  rw [matcher, outcome?_matchRule hrule hskips, halternatives, List.map_append, List.map_cons,
    Combinator.outcome?_choice_append ?_ (List.cons_ne_nil _ _)]
  · exact Combinator.outcome?_choice_success (hfuel none)
  · exact List.forall_mem_map.2 (hothers none)

/-- A rule fails like its last alternative when the others refuse the text. -/
theorem fails_rule (hrule : program.rules[id]? = some rule) (hskips : rule.skipsBlank = false)
    (halternatives : rule.alternatives = skipped ++ [alternative])
    (hskipped : ∀ alternative ∈ skipped, FailsAll program alternative.items [] (word ++ rest))
    (h : FailsAll program alternative.items word rest) :
    program.Fails (.rule id) word rest := by
  intro input start hinput
  obtain ⟨expected, hlast⟩ := h.outcome_alternative hinput
  refine ⟨expected, .of_step ?_⟩
  filter_upwards [hlast, outcome?_skipped hinput hskipped] with fuel hfuel hothers scope
  rw [matcher, outcome?_matchRule hrule hskips, halternatives, List.map_append, List.map_cons,
    List.map_nil, Combinator.outcome?_choice_append ?_ (List.cons_ne_nil _ _)]
  · exact hfuel none
  · exact List.forall_mem_map.2 (hothers none)

end Program

end Peg
