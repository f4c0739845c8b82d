/-
Peg/Proofs/Program/Yields.lean

What a success tells of the text that was read.

Rules are given meanings: relations between the word that a rule reads, the
text that comes after it and the value it gives, spans aside.  The meaning of
any other matcher follows (`Matcher.Yields`), and if every alternative agrees
with the meaning of its rule, then so does every run.  A meaning need not say
everything, and says nothing about failures.

This is done for the matchers that only read forward and do not depend on
parameters and captures.
-/
import Peg.Proofs.Program.Progress
import Peg.Proofs.Program.Reads

namespace Peg

open Text

/-- What may be known of a word, of the text after it and of its value. -/
abbrev Meaning :=
  List Char → List Char → Value → Prop

/-! ### Meanings of matchers -/

/-- One match after the other. -/
inductive Meaning.Many (meaning : Meaning) : List Char → List Char → List Value → Prop where
  | nil (rest : List Char) : Many meaning [] rest []
  | cons {word words rest : List Char} {value : Value} {values : List Value}
      (h : meaning word (words ++ rest) value) (hmany : Many meaning words rest values) :
      Many meaning (word ++ words) rest (value :: values)

/-- Each value of several matches is that of one of them. -/
theorem Meaning.Many.forall {meaning : Meaning} {word rest : List Char} {values : List Value}
    (h : meaning.Many word rest values) :
    ∀ value ∈ values, ∃ word rest, meaning word rest value := by
  induction h with
  | nil rest => nofun
  | cons h hmany ih => exact List.forall_mem_cons.2 ⟨⟨_, _, h⟩, ih⟩

namespace Matcher

/-- Matchers that only read forward and do not depend on where they are called. -/
def isBasic : Matcher → Bool
  | .literal _ | .regex _ _ | .rule _ | .negative (.literal _) => true
  | .look inner | .repeated inner _ => inner.isBasic
  | _ => false

/-- The meaning of a matcher, given those of the rules. -/
def Yields (meanings : Nat → Meaning) : Matcher → Meaning
  | .literal string => fun word _ value => word = string.toList ∧ value = .str string
  | .regex expression _ => fun word rest value =>
    expression.matchLength? (word ++ rest) = some (size word) ∧ value = .str (String.ofList word)
  | .rule id => meanings id
  | .negative (.literal string) => fun word rest value =>
    ∃ c, word = [c] ∧ value = .str c.toString ∧ ¬ string.toList <+: c :: rest
  | .repeated inner .optional => fun word rest value =>
    inner.Yields meanings word rest value ∨ word = [] ∧ value = .absent
  | .repeated inner .any => fun word rest value =>
    ∃ values, value = .list values ∧ Meaning.Many (inner.Yields meanings) word rest values
  | .repeated inner .oneOrMore => fun word rest value =>
    ∃ values, value = .list values ∧ values ≠ [] ∧
      Meaning.Many (inner.Yields meanings) word rest values
  | _ => fun _ _ _ => True

end Matcher

/-- The meaning of a sequence. -/
def YieldsAll (meanings : Nat → Meaning) :
    List Matcher → List Char → List Char → List Value → Prop
  | [], word, _, values => word = [] ∧ values = []
  | item :: items, word, rest, values => ∃ head tail value others,
      word = head ++ tail ∧ values = value :: others ∧
      item.Yields meanings head (tail ++ rest) value ∧ YieldsAll meanings items tail rest others

theorem YieldsAll.single {meanings : Nat → Meaning} {item : Matcher} {word rest : List Char}
    {values : List Value} (h : YieldsAll meanings [item] word rest values) :
    ∃ value, values = [value] ∧ item.Yields meanings word rest value := by
  obtain ⟨head, _, value, _, rfl, rfl, hitem, rfl, rfl⟩ := h
  rw [List.append_nil]
  exact ⟨value, rfl, hitem⟩

/-- Each value of a sequence is one of its item. -/
theorem YieldsAll.get {meanings : Nat → Meaning} {items : List Matcher} {word rest : List Char}
    {values : List Value} (h : YieldsAll meanings items word rest values) (index : Nat)
    {item : Matcher} (hitem : items[index]? = some item) :
    ∃ word rest value, values[index]? = some value ∧ item.Yields meanings word rest value := by
  induction items generalizing word values index with
  | nil => cases hitem
  | cons first items ih =>
    obtain ⟨head, tail, value, others, rfl, rfl, hfirst, hothers⟩ := h
    cases index with
    | zero =>
      obtain rfl := Option.some.inj hitem
      exact ⟨head, _, value, rfl, hfirst⟩
    | succ index => exact ih hothers index hitem

/-! ### Runs -/

/-- A success that reads a word, with something known of it, of the text after it and of what it
gives. -/
def Reading {α : Type} (known : List Char → List Char → α → Prop) (input : List Char) (start : Nat)
    (result : α) (stop : Nat) : Prop :=
  ∃ word rest, dropBytes? input start = some (word ++ rest) ∧ stop = start + size word ∧
    known word rest result

namespace Reading

variable {α β : Type} {known : List Char → List Char → α → Prop}
  {known' : List Char → List Char → β → Prop} {input : List Char} {start stop : Nat} {result : α}
  {result' : β}

/-- Nothing is read. -/
theorem nil {text : List Char} (hstart : dropBytes? input start = some text)
    (h : known [] text result) : Reading known input start result start :=
  ⟨[], text, hstart, rfl, h⟩

/-- Something weaker may be known. -/
theorem mono (h : Reading known input start result stop)
    (himp : ∀ word rest, known word rest result → known' word rest result') :
    Reading known' input start result' stop := by
  obtain ⟨word, rest, hstart, hstop, hknown⟩ := h
  exact ⟨word, rest, hstart, hstop, himp word rest hknown⟩

end Reading

/-- A value without its spans has the meaning. -/
def Meaning.OfValue (meaning : Meaning) : List Char → List Char → Value → Prop :=
  fun word rest value => meaning word rest value.eraseSpans

variable {meanings : Nat → Meaning} {meaning : Meaning} {input : List Char} {start : Nat}
  {text : List Char}

theorem Primitive.literal_reading (meanings : Nat → Meaning) (string : String) :
    (Run.primitive ((Primitive.literal string input start).map Value.str)).Ensures
      (Reading (Matcher.Yields meanings (.literal string)).OfValue input start) fun _ =>
        ∀ text, dropBytes? input start = some text → ¬ string.toList <+: text := by
  refine .primitive (fun value stop h => ?_) fun failure h text htext hbegins => ?_
  · obtain ⟨inner, hinner, rfl⟩ := Outcome.map_eq_success h
    obtain ⟨rfl, rfl, rest, hrest⟩ := literal_eq_success hinner
    exact ⟨_, rest, hrest, rfl, rfl, rfl⟩
  · obtain ⟨rest, rfl⟩ := hbegins
    rw [literal_of_append htext] at h
    cases h

/-- A regular expression gives the text that it reads. -/
theorem Primitive.regex_reading (expression : Regex) (description : String) :
    (Run.primitive ((Primitive.regex expression description input start).map Value.str)).Ensures
      (Reading (Matcher.Yields meanings (.regex expression description)).OfValue input start)
      fun _ => True := by
  refine .primitive (fun value stop h => ?_) fun _ _ => trivial
  obtain ⟨inner, hinner, rfl⟩ := Outcome.map_eq_success h
  obtain ⟨here, length, hhere, hlength, rfl, rfl⟩ := regex_eq_success hinner
  obtain ⟨word, rest, rfl, rfl⟩ := Regex.matchLength?_eq_some hlength
  refine ⟨word, rest, hhere, rfl, hlength, ?_⟩
  rw [takeBytes?_append]
  rfl

namespace Combinator

variable {body : Matching Value} {string : String}

/-- Where a literal is not written, the next character is read. -/
theorem negative_reading (hstart : dropBytes? input start = some text)
    (h : (body input start).Ensures (fun _ _ => True) fun _ => ¬ string.toList <+: text) :
    ((negative body input start).mapValue Value.str).Ensures
      (Reading (Matcher.Yields meanings (.negative (.literal string))).OfValue input start)
      fun _ => True := by
  refine .mapValue _ (h.resume (fun _ _ _ => trivial) fun failure hfailure => ?_)
  rw [hstart]
  cases text with
  | nil => trivial
  | cons c cs => exact ⟨[c], cs, hstart, by simp, c, rfl, rfl, hfailure⟩

theorem look_reading (hstart : dropBytes? input start = some text) (inner : Matcher)
    (h : (body input start).Ensures (fun _ _ => True) fun _ => True) :
    (look body input start).Ensures
      (Reading (Matcher.Yields meanings (.look inner)).OfValue input start) fun _ => True :=
  h.resume (fun _ _ _ => .nil hstart trivial) fun _ _ => trivial

theorem optional_reading (hstart : dropBytes? input start = some text) {inner : Matcher}
    (h : (body input start).Ensures (Reading (inner.Yields meanings).OfValue input start)
      fun _ => True) :
    ((optional body input start).mapValue Value.ofOption).Ensures
      (Reading (Matcher.Yields meanings (.repeated inner .optional)).OfValue input start)
      fun _ => True := by
  refine .mapValue _ (optional_ensures (h.mono (fun value stop hreading => ?_) fun _ h => h) ?_)
  · exact hreading.mono fun _ _ => .inl
  · exact .nil hstart (.inr ⟨rfl, rfl⟩)

/-- Several values without their spans have a meaning. -/
def OfValues (meaning : Meaning) : List Char → List Char → List Value → Prop :=
  fun word rest values => meaning.Many word rest (values.map Value.eraseSpans)

/-- A repetition reads one word after the other. -/
theorem many_reading {fuel : Nat} (hstart : dropBytes? input start = some text)
    (h : ∀ start text, dropBytes? input start = some text →
      (body input start).Ensures (Reading meaning.OfValue input start) fun _ => True) :
    (many fuel body input start).Ensures (Reading (OfValues meaning) input start)
      fun _ => True := by
  refine many_ensures (I := fun start => ∃ text, dropBytes? input start = some text)
    (P := Reading (OfValues meaning) input) ?_ ?_ ⟨text, hstart⟩
  · rintro start ⟨text, hstart⟩
    exact .nil hstart (.nil text)
  · rintro start ⟨text, hstart⟩
    refine (h start text hstart).mono (fun value stop hvalue => ?_) fun _ h => h
    obtain ⟨word, rest, hword, rfl, hmeaning⟩ := hvalue
    refine ⟨⟨rest, dropBytes?_add hword⟩, fun values last hvalues => ?_⟩
    obtain ⟨words, rest', hwords, rfl, hmany⟩ := hvalues
    obtain rfl := Option.some.inj ((dropBytes?_add hword).symm.trans hwords)
    refine ⟨word ++ words, rest', by rw [hword, List.append_assoc], ?_, .cons hmeaning hmany⟩
    rw [size_append, Nat.add_assoc]

theorem any_reading {fuel : Nat} (hstart : dropBytes? input start = some text) {inner : Matcher}
    (h : ∀ start text, dropBytes? input start = some text →
      (body input start).Ensures (Reading (inner.Yields meanings).OfValue input start)
        fun _ => True) :
    ((many fuel body input start).mapValue Value.list).Ensures
      (Reading (Matcher.Yields meanings (.repeated inner .any)).OfValue input start)
      fun _ => True := by
  refine .mapValue _ ((many_reading hstart h).mono (fun values stop hreading => ?_) fun _ h => h)
  refine hreading.mono fun word rest hmany => ⟨_, ?_, hmany⟩
  rw [Value.eraseSpans, Value.eraseSpansOfAll_eq_map]

theorem oneOrMore_reading {fuel : Nat} (hstart : dropBytes? input start = some text)
    {inner : Matcher}
    (h : ∀ start text, dropBytes? input start = some text →
      (body input start).Ensures (Reading (inner.Yields meanings).OfValue input start)
        fun _ => True) :
    ((many1 fuel body input start).mapValue Value.list).Ensures
      (Reading (Matcher.Yields meanings (.repeated inner .oneOrMore)).OfValue input start)
      fun _ => True := by
  refine .mapValue _ ((h start text hstart).andThen fun value stop hvalue => ?_)
  obtain ⟨word, rest, hword, rfl, hmeaning⟩ := hvalue
  refine .mapValue _ ((many_reading (dropBytes?_add hword) h).mono (fun values last hvalues => ?_)
    fun _ h => h)
  obtain ⟨words, rest', hwords, rfl, hmany⟩ := hvalues
  obtain rfl := Option.some.inj ((dropBytes?_add hword).symm.trans hwords)
  refine ⟨word ++ words, rest', by rw [hword, List.append_assoc], ?_, _, ?_, List.cons_ne_nil _ _,
    .cons hmeaning hmany⟩
  · rw [size_append, Nat.add_assoc]
  · rw [Value.eraseSpans, Value.eraseSpansOfAll_eq_map, List.map_cons]

end Combinator

/-! ### Sequences and rules -/

namespace Program

/-- Every success of a matcher has its meaning. -/
def Step.Means (step : Step) (meanings : Nat → Meaning) : Prop :=
  ∀ (scope : Scope) (m : Matcher), m.isBasic = true → ∀ input start text,
    dropBytes? input start = some text →
      (step scope m input start).Ensures (Reading (m.Yields meanings).OfValue input start)
        fun _ => True

variable {step : Step}

/-- Captures that are taken after others have values, spans aside, that have a meaning. -/
def OfCaptures (meanings : Nat → Meaning) (items : List Matcher) (previous : List Capture) :
    List Char → List Char → List Capture → Prop :=
  fun word rest captures => ∃ later, captures = previous ++ later ∧
    YieldsAll meanings items word rest (later.map fun capture => capture.value.eraseSpans)

/-- A sequence reads the words of its items, and adds their captures to the previous ones. -/
theorem sequence_reading (hstep : Step.Means step meanings) {items : List Matcher}
    (hbasic : ∀ item ∈ items, item.isBasic = true) (param : Option String)
    (previous : List Capture) (hstart : dropBytes? input start = some text) :
    (Combinator.sequence (itemsOf step items param) previous input start).Ensures
      (Reading (OfCaptures meanings items previous) input start) fun _ => True := by
  induction items generalizing previous start text with
  | nil => exact .nil hstart ⟨[], (List.append_nil previous).symm, rfl, rfl⟩
  | cons item items ih =>
    obtain ⟨hitem, hitems⟩ := List.forall_mem_cons.1 hbasic
    have hfirst := hstep ⟨param, previous⟩ item hitem input start text hstart
    have hcapture : (Run.andThen (step ⟨param, previous⟩ item input start) fun value stop =>
        .done (.success (⟨value, ⟨start, stop⟩⟩ : Capture) stop)).Ensures
        (fun capture stop => Reading (item.Yields meanings).OfValue input start capture.value stop)
        fun _ => True :=
      hfirst.andThen fun value stop hvalue => hvalue
    rw [itemsOf, List.map_cons, Combinator.sequence]
    refine hcapture.andThen fun capture stop hcaptured => ?_
    obtain ⟨word, rest, hword, rfl, hmeaning⟩ := hcaptured
    refine (ih hitems (previous ++ [capture]) (dropBytes?_add hword)).mono
      (fun captures last hcaptures => ?_) fun _ h => h
    obtain ⟨words, rest', hwords, rfl, later, rfl, hyields⟩ := hcaptures
    obtain rfl := Option.some.inj ((dropBytes?_add hword).symm.trans hwords)
    refine ⟨word ++ words, rest', by rw [hword, List.append_assoc], ?_, capture :: later, ?_, ?_⟩
    · rw [size_append, Nat.add_assoc]
    · rw [List.append_assoc, List.singleton_append]
    · exact ⟨word, words, _, _, rfl, rfl, hmeaning, hyields⟩

/-- The alternatives of a rule have its meaning, given those of the rules they call. -/
structure Agrees (meanings : Nat → Meaning) (meaning : Meaning) (rule : CompiledRule) : Prop where
  skipsBlank : rule.skipsBlank = false
  basic : ∀ alternative ∈ rule.alternatives, ∀ item ∈ alternative.items, item.isBasic = true
  positionless : ∀ alternative ∈ rule.alternatives, alternative.isPositionless = true
  yields : ∀ alternative ∈ rule.alternatives, ∀ word rest values,
    YieldsAll meanings alternative.items word rest values →
      meaning word rest (alternative.shape values word)

/-- An alternative whose mapper agrees with the meaning of its rule reads what this allows. -/
theorem matchAlternative_reading (hstep : Step.Means step meanings) {rule : CompiledRule}
    (h : Agrees meanings meaning rule) {alternative : CompiledAlternative}
    (halternative : alternative ∈ rule.alternatives) (param : Option String)
    (hstart : dropBytes? input start = some text) :
    (matchAlternative step alternative param input start).Ensures
      (Reading meaning.OfValue input start) fun _ => True := by
  have hbasic := h.basic alternative halternative
  have hpositionless := h.positionless alternative halternative
  have hyields := h.yields alternative halternative
  rw [matchAlternative, matchItems_eq]
  refine (sequence_reading hstep hbasic param [] hstart).andThen fun captures stop hcaptures => ?_
  obtain ⟨word, rest, hword, rfl, later, hlater, hvalues⟩ := hcaptures
  rw [List.nil_append] at hlater
  subst hlater
  refine ⟨word, rest, hword, rfl, ?_⟩
  have hmeaning := hyields word rest _ hvalues
  obtain ⟨items, mapper⟩ := alternative
  cases mapper with
  | none =>
    show meaning word rest (Value.ofItems _).eraseSpans
    rw [Value.eraseSpans_ofItems, List.map_map]
    exact hmeaning
  | some mapper =>
    show meaning word rest (mapper.evaluate _ input ⟨start, start + Text.size word⟩).eraseSpans
    rw [MapperExpr.eraseSpans_evaluate (slice?_of_dropBytes? hword) mapper hpositionless]
    exact hmeaning

/-- So a rule reads what its meaning allows if all its alternatives do. -/
theorem matchRule_reading (hstep : Step.Means step meanings) {program : Program} {id : Nat}
    (h : ∀ rule, program.rules[id]? = some rule → Agrees meanings meaning rule)
    (param : Option String) (hstart : dropBytes? input start = some text) :
    (program.matchRule step id param input start).Ensures (Reading meaning.OfValue input start)
      fun _ => True := by
  refine matchRule_ensures (fun rule hrule alternative halternative => ?_)
    fun rule hrule hskips => ?_
  · exact matchAlternative_reading hstep (h rule hrule) halternative param hstart
  · rw [(h rule hrule).skipsBlank] at hskips
    cases hskips

/-- If the alternatives of every rule have its meaning, then every success has. -/
theorem matcher_means {program : Program}
    (h : ∀ id rule, program.rules[id]? = some rule → Agrees meanings (meanings id) rule)
    (fuel : Nat) : Step.Means (program.matcher fuel) meanings := by
  induction fuel with
  | zero => intro scope m hbasic input start text hstart; trivial
  | succ fuel ih =>
    intro scope m hbasic input start text hstart
    cases m with
    | literal string =>
      exact (Primitive.literal_reading meanings string).mono (fun _ _ h => h) fun _ _ => trivial
    | regex expression description => exact Primitive.regex_reading expression description
    | rule id => exact matchRule_reading ih (h id) none hstart
    -- the next character is read where the literal is not written, so the failure has to tell this
    | negative inner =>
      cases inner with
      | literal string =>
        refine Combinator.negative_reading hstart ?_
        cases fuel with
        | zero => trivial
        | succ fuel =>
          exact (Primitive.literal_reading meanings string).mono (fun _ _ _ => trivial)
            fun _ hrefuses => hrefuses text hstart
      | _ => cases hbasic
    | look inner =>
      have hinner := ih scope inner hbasic input start text hstart
      exact Combinator.look_reading hstart inner (hinner.mono (fun _ _ _ => trivial) fun _ h => h)
    | repeated inner repetition =>
      cases repetition with
      | optional =>
        exact Combinator.optional_reading hstart (ih scope inner hbasic input start text hstart)
      | any => exact Combinator.any_reading hstart (ih scope inner hbasic input)
      | oneOrMore => exact Combinator.oneOrMore_reading hstart (ih scope inner hbasic input)
    | _ => cases hbasic

end Program

end Peg
