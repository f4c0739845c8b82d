/-
Peg/Proofs/Program/Bounds.lean

Runs within the bounds of a text.

A run that starts at an offset of a text stops at one, and so does each of its
parts: this is the course `Course.within`.  Backward matchers follow it too,
for the text they read is the one before an offset, and its offsets are those
of the whole text counted from the other side.  Only the order is lost.

Where the order is kept, everything that a run gives is in bounds as well
(`matcher_inBounds`).  A backward matcher breaks that: the value of its body
speaks of offsets of the reversed text.
-/
import Peg.Proofs.Program.Course
import Peg.Proofs.Value.Bounds

namespace Peg

open Text

variable {ordered : Bool}

/-! ### The course -/

/-- Stopping at an offset when starting at one, and not before it if the order is kept. -/
def Course.within (ordered : Bool) : Course where
  Along input start _ stop := IsOffset input start → (Span.mk start stop).Within ordered input
  stay _ _ := Span.within_stay ordered
  trans h h' hstart := by
    have hfirst := h hstart
    have hsecond := h' hfirst.stop
    refine ⟨hstart, hsecond.stop, fun hordered => ?_⟩
    exact (hfirst.inOrder hordered).trans (hsecond.inOrder hordered)
  read _ _ hread hstart := ⟨hstart, isOffset_of_dropBytes? hread, fun _ => Nat.le_add_right ..⟩
  event _ _ := Span.within_stay ordered

theorem Course.within_resets : (Course.within ordered).Resets :=
  fun _ => Span.within_stay ordered

/-- What is read backward is read of the text before the start, so it is never longer. -/
theorem Course.within_reverses : (Course.within false).Reverses where
  success hpassed h := by
    have hlength := (h (isOffset_zero _)).stop
    obtain ⟨hle, hback⟩ := isOffset_mirror hpassed hlength
    exact ⟨hle, fun hstart => ⟨hstart, hback, nofun⟩⟩
  failure _ _ := Span.within_stay false

/-- Matchers of the program alone, without backward ones if the order is kept. -/
structure Matcher.Stays (ordered : Bool) (m : Matcher) : Prop where
  internal : m.isExternal = false
  forward : ordered = true → m.isBacktrack = false

theorem Course.within_permits {m : Matcher} (h : m.Stays ordered) :
    (Course.within ordered).Permits m := by
  cases m with
  | negative inner | look inner | attempt inner => exact Course.within_resets
  | backtrack inner =>
    cases ordered with
    | false => exact Course.within_reverses
    | true => cases h.forward rfl
  | external name transformer inner => cases h.internal
  | _ => trivial

theorem Run.Follows.ensures_within {α : Type} {input : List Char} {start : Nat} {run : Run α}
    (h : run.Follows (.within ordered) input start) (hstart : IsOffset input start) :
    run.Ensures (fun _ stop => (Span.mk start stop).Within ordered input)
      fun failure => (Span.mk start failure.position).Within ordered input :=
  h.ensures fun _ _ hspan => hspan hstart

namespace Program

variable {program : Program} {step : Step} {param : Option String} {input : List Char}
variable {start : Nat}

theorem matcher_follows_within (hprogram : program.Every (Matcher.Stays ordered)) (fuel : Nat)
    (scope : Scope) {m : Matcher} (hm : m.Every (Matcher.Stays ordered)) :
    (program.matcher fuel scope m).Follows (.within ordered) :=
  matcher_follows (hprogram.mono fun _ => Course.within_permits) fuel scope
    (hm.mono fun _ => Course.within_permits)

theorem matcher_within (hprogram : program.Every (Matcher.Stays ordered)) (fuel : Nat)
    (scope : Scope) {m : Matcher} (hm : m.Every (Matcher.Stays ordered))
    (hstart : IsOffset input start) :
    (program.matcher fuel scope m input start).Ensures
      (fun _ stop => (Span.mk start stop).Within ordered input)
      fun failure => (Span.mk start failure.position).Within ordered input :=
  (matcher_follows_within hprogram fuel scope hm input start).ensures_within hstart

/-! ### Values -/

end Program

/-- A run whose value is in bounds, and so is the span it was read from. -/
abbrev Run.InBounds (input : List Char) (start : Nat) (run : Run Value) : Prop :=
  run.Ensures (fun value stop => Capture.InBounds input ⟨value, ⟨start, stop⟩⟩) fun _ => True

theorem Run.InBounds.stops {input : List Char} {start : Nat} {run : Run Value}
    (h : run.InBounds input start) :
    run.Ensures (fun value stop => IsOffset input stop ∧
      Capture.InBounds input ⟨value, ⟨start, stop⟩⟩) fun _ => True :=
  h.mono (fun _ _ hcapture => ⟨hcapture.span.stop, hcapture⟩) fun _ h => h

theorem Run.InBounds.values {input : List Char} {start : Nat} {run : Run Value}
    (h : run.InBounds input start) :
    run.Ensures (fun value _ => value.InBounds input) fun _ => True :=
  h.mono (fun _ _ hcapture => hcapture.value) fun _ h => h

/-- The values of a repetition are those of its body. -/
theorem Combinator.many_inBounds {body : Matching Value} {input : List Char} {start : Nat}
    (h : ∀ start, IsOffset input start → (body input start).InBounds input start)
    (hstart : IsOffset input start) (fuel : Nat) :
    (many fuel body input start).Ensures (fun values _ => ∀ value ∈ values, value.InBounds input)
      fun _ => True := by
  refine many_ensures (I := IsOffset input)
    (P := fun _ (values : List Value) _ => ∀ value ∈ values, value.InBounds input)
    (fun _ _ => nofun) (fun start hstart => ?_) hstart
  refine (h start hstart).stops.mono (fun value stop hvalue => ?_) fun _ h => h
  exact ⟨hvalue.1, fun values _ hvalues => List.forall_mem_cons.2 ⟨hvalue.2.value, hvalues⟩⟩

namespace Program

variable {program : Program} {step : Step} {param : Option String} {input : List Char}
variable {start : Nat}

/-- A mapper is given captures and a span in bounds. -/
theorem matchAlternative_inBounds {alternative : CompiledAlternative}
    (h : ∀ item ∈ alternative.items, ∀ captures start, IsOffset input start →
      (step ⟨param, captures⟩ item input start).InBounds input start)
    (hfollows : (matchItems step alternative.items param).Follows (.within true))
    (hstart : IsOffset input start) :
    (matchAlternative step alternative param input start).Ensures
      (fun value _ => value.InBounds input) fun _ => True := by
  have hcaptures := matchItems_ensures
    (fun item hitem captures start hstart => (h item hitem captures start hstart).stops) hstart
  have hspan := (hfollows input start).ensures_within hstart
  refine ((hcaptures.and hspan).mono (fun _ _ h => h) fun _ _ => trivial).andThen ?_
  rintro captures stop ⟨⟨-, hcaptures⟩, hspan⟩
  -- without a mapper the values of the items are all there is
  rcases alternative.mapper with - | mapper
  · exact Value.inBounds_hereditary.ofItems (Capture.inBounds_values hcaptures)
  · exact MapperExpr.inBounds_evaluate hcaptures hspan mapper

/-- A rule gives values in bounds when the matchers of its program do. -/
theorem rule_inBounds (hprogram : program.Every (Matcher.Stays true)) {fuel : Nat}
    (h : ∀ scope {m : Matcher}, m.Every (Matcher.Stays true) → ∀ start, IsOffset input start →
      (program.matcher fuel scope m input start).InBounds input start)
    (id : Nat) (param : Option String) (hstart : IsOffset input start) :
    (program.call fuel id param input start).Ensures (fun value _ => value.InBounds input)
      fun _ => True := by
  refine matchRule_ensures (fun rule hrule alternative halternative => ?_) fun _ _ _ _ _ h => h
  have hitems := fun item (hitem : item ∈ alternative.items) =>
    hprogram.ofItem hrule halternative hitem
  refine matchAlternative_inBounds (fun item hitem captures => h _ (hitems item hitem)) ?_ hstart
  exact matchItems_follows fun item hitem captures =>
    matcher_follows_within hprogram fuel _ (hitems item hitem)

/-- Without backward matching every value is in bounds. -/
theorem matcher_inBounds (hprogram : program.Every (Matcher.Stays true)) (fuel : Nat)
    (scope : Scope) {m : Matcher} (hm : m.Every (Matcher.Stays true))
    (hstart : IsOffset input start) :
    (program.matcher fuel scope m input start).InBounds input start := by
  induction fuel generalizing scope m start with
  | zero => trivial
  | succ fuel ih =>
    -- where the run stops is known, so the value is all that is left
    suffices hvalue : (program.matcher (fuel + 1) scope m input start).Ensures
        (fun value _ => value.InBounds input) fun _ => True by
      have hspan := matcher_within hprogram (fuel + 1) scope hm hstart
      exact (hvalue.and hspan).mono (fun _ _ h => ⟨h.1, h.2⟩) fun _ _ => trivial
    have htext : ∀ outcome : Outcome String, (Run.primitive (outcome.map Value.str)).Ensures
        (fun value _ => value.InBounds input) fun _ => True := by
      refine fun outcome => .primitive (fun value stop hsuccess => ?_) fun _ _ => trivial
      obtain ⟨text, -, rfl⟩ := Outcome.map_eq_success hsuccess
      trivial
    have hrule := fun id param =>
      rule_inBounds hprogram (fun scope _ hm _ hstart => ih scope hm hstart) id param hstart
    cases m with
    | literal string => exact htext _
    | regex expression description => exact htext _
    | any => exact htext _
    | rule id => exact hrule id none
    | param => exact htext _
    | «variable» index => exact htext _
    | template id argument => exact hrule id (some argument)
    | negative inner =>
      exact .mapValue Value.str ((Run.Ensures.any _).mono (fun _ _ _ => trivial) fun _ h => h)
    | look inner =>
      exact (ih scope hm.look hstart).values.resume (fun _ _ hvalue => hvalue) fun _ _ => trivial
    | attempt inner =>
      exact Combinator.attempt_ensures (ih scope hm.attempt hstart).values fun _ h => h
    | backtrack inner => cases hm.self.forward rfl
    | external name transformer inner => cases hm.self.internal
    | group items important =>
      have hcaptures := matchItems_ensures (fun item hitem captures start hstart =>
        (ih ⟨scope.param, captures⟩ (hm.group item hitem) hstart).stops) hstart
      refine .mapValue (groupValue important) (hcaptures.mono (fun captures _ h => ?_) fun _ h => h)
      exact Value.inBounds_hereditary.ofItems
        (Value.Hereditary.project (Capture.inBounds_values h.2) important)
    | repeated inner repetition =>
      have hinner := fun start (hstart : IsOffset input start) => ih scope hm.repeated hstart
      cases repetition with
      | optional =>
        exact .mapValue Value.ofOption (Combinator.optional_ensures
          (P := fun value _ => Value.InBounds input (.ofOption value))
          (hinner start hstart).values trivial)
      | any =>
        exact .mapValue Value.list ((Combinator.many_inBounds hinner hstart fuel).mono
          (fun _ _ h => Value.areInBounds_iff.2 h) fun _ h => h)
      | oneOrMore =>
        refine .mapValue Value.list ((hinner start hstart).andThen fun first stop hfirst => ?_)
        have hmany := Combinator.many_inBounds hinner hfirst.span.stop fuel
        refine .mapValue (first :: ·) (hmany.mono (fun values _ hvalues => ?_) fun _ h => h)
        exact Value.areInBounds_iff.2 (List.forall_mem_cons.2 ⟨hfirst.value, hvalues⟩)

/-- Without backward matching every rule gives values in bounds. -/
theorem call_inBounds (hprogram : program.Every (Matcher.Stays true)) (fuel id : Nat)
    (param : Option String) (hstart : IsOffset input start) :
    (program.call fuel id param input start).Ensures (fun value _ => value.InBounds input)
      fun _ => True :=
  rule_inBounds hprogram (fun scope _ hm _ hstart => matcher_inBounds hprogram fuel scope hm hstart)
    id param hstart

end Program

end Peg
