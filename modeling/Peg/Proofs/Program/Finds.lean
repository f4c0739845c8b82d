/-
Peg/Proofs/Program/Finds.lean

What a success tells of the places where it started and stopped.

The meanings of rules (`Yields`) leave out where a word was read and the spans
of the value.  Here it is the other way round: a finding relates the offsets
where a success starts and stops to its value, spans included.  Findings are
given to the rules of a program, those of the other matchers follow
(`Matcher.Finds`), and if every alternative has the finding of its rule, so
does every run.

What is known of all the matchers of a program for other reasons may be used
for the items of an alternative.
-/
import Peg.Proofs.Program.Ensures
import Peg.Proofs.Program.Parts
import Peg.Proofs.Program.Progress

namespace Peg

open Text

/-- What may be known of the offsets where a success starts and stops and of its value. -/
abbrev Finding :=
  Nat → Nat → Value → Prop

/-- One success after the other, each where the one before it stopped. -/
inductive Finding.Chain (finding : Finding) : Nat → Nat → List Value → Prop where
  | nil (start : Nat) : Chain finding start start []
  | cons {start middle stop : Nat} {value : Value} {values : List Value}
      (h : finding start middle value) (hchain : Chain finding middle stop values) :
      Chain finding start stop (value :: values)

/-- A chain of findings is one of what follows from them. -/
theorem Finding.Chain.mono {finding finding' : Finding} {start stop : Nat} {values : List Value}
    (h : finding.Chain start stop values)
    (himp : ∀ start stop value, finding start stop value → finding' start stop value) :
    finding'.Chain start stop values := by
  induction h with
  | nil start => exact .nil start
  | cons h hchain ih => exact .cons (himp _ _ _ h) ih

/-! ### Findings of matchers -/

/-- The finding of a matcher in a text, given those of the rules. -/
def Matcher.Finds (input : List Char) (findings : Nat → Finding) : Matcher → Finding
  | .regex expression _ => fun start stop _ => ∃ word rest,
    dropBytes? input start = some (word ++ rest) ∧ stop = start + size word ∧
      expression.matchLength? (word ++ rest) = some (size word)
  | .rule id => findings id
  | .look _ => fun start stop _ => stop = start
  | .repeated inner .optional => fun start stop value =>
    inner.Finds input findings start stop value ∨ stop = start ∧ value = .absent
  | .repeated inner .any => fun start stop value =>
    ∃ values, value = .list values ∧ Finding.Chain (inner.Finds input findings) start stop values
  | .repeated inner .oneOrMore => fun start stop value =>
    ∃ values, value = .list values ∧ values ≠ [] ∧
      Finding.Chain (inner.Finds input findings) start stop values
  | _ => fun _ _ _ => True

/-- What is found of the captures of a sequence, item by item. -/
def FindsAll (finding : Matcher → Finding) : List Matcher → Nat → Nat → List Capture → Prop
  | [], start, stop, captures => stop = start ∧ captures = []
  | item :: items, start, stop, captures => ∃ middle value others,
      captures = ⟨value, ⟨start, middle⟩⟩ :: others ∧ finding item start middle value ∧
        FindsAll finding items middle stop others

/-- The value of an alternative that has matched a span of the input. -/
def CompiledAlternative.value (alternative : CompiledAlternative) (captures : List Capture)
    (input : List Char) (span : Span) : Value :=
  match alternative.mapper with
  | some mapper => mapper.evaluate captures input span
  | none => .ofItems (captures.map (·.value))

/-! ### Runs -/

namespace Combinator

variable {body : Matching Value} {input : List Char} {start : Nat} {finding : Finding}

theorem many_chain {fuel : Nat} (h : ∀ start, (body input start).Ensures
      (fun value stop => finding start stop value) fun _ => True) :
    (many fuel body input start).Ensures (fun values stop => finding.Chain start stop values)
      fun _ => True := by
  refine many_ensures (I := fun _ => True)
    (P := fun start values stop => finding.Chain start stop values)
    (fun start _ => .nil start) (fun start _ => ?_) trivial
  exact (h start).mono (fun value stop hvalue => ⟨trivial, fun _ _ => .cons hvalue⟩) fun _ h => h

theorem many1_chain {fuel : Nat} (h : ∀ start, (body input start).Ensures
      (fun value stop => finding start stop value) fun _ => True) :
    (many1 fuel body input start).Ensures
      (fun values stop => values ≠ [] ∧ finding.Chain start stop values) fun _ => True := by
  refine (h start).andThen fun first stop hfirst => ?_
  refine .mapValue (first :: ·) ((many_chain h).mono (fun values last hvalues => ?_) fun _ h => h)
  exact ⟨List.cons_ne_nil first values, .cons hfirst hvalues⟩

end Combinator

namespace Program

variable {program : Program} {step : Step} {param : Option String} {input : List Char}
  {findings : Nat → Finding} {finding : Matcher → Finding} {start : Nat}

theorem matchItems_finds {items : List Matcher}
    (h : ∀ item ∈ items, ∀ captures start, (step ⟨param, captures⟩ item input start).Ensures
      (fun value stop => finding item start stop value) fun _ => True) :
    (matchItems step items param input start).Ensures
      (fun captures stop => FindsAll finding items start stop captures) fun _ => True := by
  -- captures that are taken after others
  suffices hsequence : ∀ previous start,
      (Combinator.sequence (items.map fun item captures input start =>
        Run.andThen (step ⟨param, captures⟩ item input start) fun value stop =>
          .done (.success ⟨value, ⟨start, stop⟩⟩ stop)) previous input start).Ensures
        (fun captures stop => ∃ later, captures = previous ++ later ∧
          FindsAll finding items start stop later) fun _ => True by
    refine (hsequence [] start).mono (fun captures stop hcaptures => ?_) fun _ h => h
    obtain ⟨later, rfl, hlater⟩ := hcaptures
    exact hlater
  induction items with
  | nil => exact fun previous start => ⟨[], (List.append_nil previous).symm, rfl, rfl⟩
  | cons item items ih =>
    intro previous start
    obtain ⟨hitem, hitems⟩ := List.forall_mem_cons.1 h
    have hcapture : (Run.andThen (step ⟨param, previous⟩ item input start) fun value stop =>
        .done (.success (⟨value, ⟨start, stop⟩⟩ : Capture) stop)).Ensures
        (fun capture stop => capture.span = ⟨start, stop⟩ ∧ finding item start stop capture.value)
        fun _ => True :=
      (hitem previous start).andThen fun value stop hvalue => ⟨rfl, hvalue⟩
    rw [List.map_cons, Combinator.sequence]
    refine hcapture.andThen fun capture stop hcapture => ?_
    obtain ⟨hspan, hvalue⟩ := hcapture
    refine (ih hitems (previous ++ [capture]) stop).mono (fun captures last hcaptures => ?_)
      fun _ h => h
    obtain ⟨later, rfl, hlater⟩ := hcaptures
    refine ⟨capture :: later, by rw [List.append_assoc, List.singleton_append],
      stop, capture.value, later, ?_, hvalue, hlater⟩
    rw [← hspan]

theorem matchAlternative_finds {alternative : CompiledAlternative}
    (h : ∀ item ∈ alternative.items, ∀ captures start,
      (step ⟨param, captures⟩ item input start).Ensures
        (fun value stop => finding item start stop value) fun _ => True) :
    (matchAlternative step alternative param input start).Ensures
      (fun value stop => ∃ captures, FindsAll finding alternative.items start stop captures ∧
        value = alternative.value captures input ⟨start, stop⟩) fun _ => True :=
  (matchItems_finds h).andThen fun captures _ hcaptures => ⟨captures, hcaptures, rfl⟩

/-- If the alternatives of every rule have its finding, given what is known of their items, then
every success has. -/
theorem matcher_finds {known : Matcher → Finding}
    (hknown : ∀ fuel scope m, program.Contains m → ∀ start,
      (program.matcher fuel scope m input start).Ensures
        (fun value stop => known m start stop value) fun _ => True)
    (hrules : ∀ id rule, program.rules[id]? = some rule → rule.skipsBlank = false ∧
      ∀ alternative ∈ rule.alternatives, ∀ start stop captures,
        FindsAll (fun item start stop value => item.Finds input findings start stop value ∧
          known item start stop value) alternative.items start stop captures →
        findings id start stop (alternative.value captures input ⟨start, stop⟩))
    (fuel : Nat) (scope : Scope) (m : Matcher) (start : Nat) :
    (program.matcher fuel scope m input start).Ensures
      (fun value stop => m.Finds input findings start stop value) fun _ => True := by
  induction fuel generalizing scope m start with
  | zero => trivial
  | succ fuel ih =>
    cases m with
    | regex expression description =>
      refine .primitive (fun value stop hsuccess => ?_) fun _ _ => trivial
      obtain ⟨text, hregex, -⟩ := Outcome.map_eq_success hsuccess
      obtain ⟨here, length, hhere, hlength, rfl, -⟩ := Primitive.regex_eq_success hregex
      obtain ⟨word, rest, rfl, rfl⟩ := Regex.matchLength?_eq_some hlength
      exact ⟨word, rest, hhere, rfl, hlength⟩
    | rule id =>
      refine matchRule_ensures (fun rule hrule alternative halternative => ?_)
        fun rule hrule hskips => ?_
      · -- items run with less fuel, and what is known of them comes on top
        have hitems := fun item (hitem : item ∈ alternative.items) captures start =>
          (ih ⟨none, captures⟩ item start).and
            (hknown fuel ⟨none, captures⟩ item (.ofItem hrule halternative hitem) start)
        refine (matchAlternative_finds fun item hitem captures start =>
          (hitems item hitem captures start).mono (fun _ _ h => h) fun _ _ => trivial).mono
          (fun value stop hvalue => ?_) fun _ h => h
        obtain ⟨captures, hcaptures, rfl⟩ := hvalue
        exact (hrules id rule hrule).2 alternative halternative start stop captures hcaptures
      · -- blanks skipped after an alternative would move the stop
        rw [(hrules id rule hrule).1] at hskips
        cases hskips
    | look inner =>
      -- whatever is inside, the run goes on from where it started
      exact .resume (.any _) (fun _ _ _ => rfl) fun _ _ => trivial
    | repeated inner repetition =>
      have hinner := ih scope inner
      cases repetition with
      | optional =>
        refine .mapValue Value.ofOption (Combinator.optional_ensures
          (P := fun value stop => Matcher.Finds input findings (.repeated inner .optional) start stop
            (.ofOption value)) ?_ (.inr ⟨rfl, rfl⟩))
        exact (hinner start).mono (fun _ _ hvalue => .inl hvalue) fun _ h => h
      | any =>
        exact .mapValue Value.list ((Combinator.many_chain hinner).mono
          (fun values _ hvalues => ⟨values, rfl, hvalues⟩) fun _ h => h)
      | oneOrMore =>
        exact .mapValue Value.list ((Combinator.many1_chain hinner).mono
          (fun values _ hvalues => ⟨values, rfl, hvalues⟩) fun _ h => h)
    | _ => exact (Run.Ensures.any _).mono (fun _ _ _ => trivial) fun _ h => h

end Program

end Peg
