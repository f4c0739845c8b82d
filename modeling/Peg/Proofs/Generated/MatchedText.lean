/-
Peg/Proofs/Generated/MatchedText.lean

The text of an alternative, interpreted and generated.

A mapper refers to the text of its alternative as `text()`.  The interpreter
cuts the input from the start to the end of the match, and a generated parser
calls a function that takes the two offsets in whichever order they come.
Where a match has gone forward both give the same.  A match that ends before
it starts has no text for the interpreter, while the function finds what lies
between (`text_eq_matchedText_iff`).

That the two differ on every such match needs that there is something between
the offsets.  A run that stops elsewhere than it started does so on a boundary
of the text, and started on one: this is the course `Course.apart`, which
backward matchers follow as well.
-/
import Peg.Proofs.Generated.OfGrammar
import Peg.Proofs.Program.Bounds

namespace Peg

open Text

/-! ### Between two offsets -/

/-- What lies between two offsets is as long as they are apart. -/
theorem Text.exists_slice? {cs : List Char} {start stop : Nat} (hstart : IsOffset cs start)
    (hstop : IsOffset cs stop) (hle : start ≤ stop) :
    ∃ middle, slice? cs start stop = some middle ∧ size middle = stop - start := by
  obtain ⟨before, after, rfl, rfl⟩ := isOffset_iff.1 hstart
  obtain ⟨passed, rest, hcut, rfl⟩ := isOffset_iff.1 hstop
  rcases List.append_eq_append_iff.1 hcut with ⟨middle, rfl, rfl⟩ | ⟨middle, rfl, rfl⟩
  · refine ⟨middle, ?_, by simp⟩
    rw [size_append]
    exact slice?_of_dropBytes? (dropBytes?_append ..)
  · -- the cuts are in order, so the one that comes later here is the same
    obtain rfl : middle = [] := by
      rw [← size_eq_zero_iff]
      rw [size_append] at hle
      omega
    refine ⟨[], ?_, by simp⟩
    simpa using slice?_self hstart

theorem Primitive.textBetween_ne_empty {input : List Char} {start stop : Nat}
    (hstart : IsOffset input start) (hstop : IsOffset input stop) (hlt : stop < start) :
    Primitive.textBetween input start stop ≠ "" := by
  obtain ⟨middle, hmiddle, hsize⟩ := exists_slice? hstop hstart hlt.le
  rw [Primitive.textBetween, Nat.min_eq_right hlt.le, Nat.max_eq_left hlt.le, hmiddle,
    Option.getD_some]
  intro hempty
  have hnil : middle = [] := by simpa using congrArg String.toList hempty
  rw [hnil, size_nil] at hsize
  omega

/-! ### The course -/

/-- Stopping where the run started, or going from one offset of the text to another. -/
def Course.apart : Course where
  Along input start _ stop := stop = start ∨ IsOffset input start ∧ IsOffset input stop
  stay _ _ := .inl rfl
  trans := by
    rintro input start events middle later stop (rfl | ⟨hstart, hmiddle⟩) h
    · exact h
    · rcases h with rfl | ⟨-, hstop⟩
      · exact .inr ⟨hstart, hmiddle⟩
      · exact .inr ⟨hstart, hstop⟩
  read passed rest hread := by
    refine .inr ⟨isOffset_iff_isBoundary.2 ?_, isOffset_of_dropBytes? hread⟩
    rw [isBoundary, hread]
    rfl
  event _ _ := .inl rfl

theorem Course.apart_resets : Course.apart.Resets :=
  fun _ => .inl rfl

/-- A backward match ends where it started or at an offset before. -/
theorem Course.apart_reverses : Course.apart.Reverses where
  success := by
    rintro input start passed events length hpassed (rfl | ⟨-, hlength⟩)
    · exact ⟨Nat.zero_le _, .inl rfl⟩
    · obtain ⟨hle, hback⟩ := isOffset_mirror hpassed hlength
      obtain ⟨rest, hcut, hsize⟩ := takeBytes?_eq_some_iff.1 hpassed
      exact ⟨hle, .inr ⟨isOffset_iff.2 ⟨passed, rest, hcut, hsize⟩, hback⟩⟩
  failure _ _ := .inl rfl

theorem Course.apart_permits {m : Matcher} (h : m.isExternal = false) :
    Course.apart.Permits m := by
  cases m with
  | negative inner | look inner | attempt inner => exact Course.apart_resets
  | backtrack inner => exact Course.apart_reverses
  | external name transformer inner => cases h
  | _ => trivial

/-! ### Mappers -/

namespace MapperExpr

variable {captures : List Capture} {input : List Char} {span : Span} {start stop : Nat}

mutual

/-- The value of an expression in which `text()` has been replaced by a value. -/
def evaluateWith (text : Value) (captures : List Capture) (span : Span) : MapperExpr → Value
  | .capture index => ((captures[index]?).map (·.value)).getD .absent
  | .startOf index => ((captures[index]?).map fun capture => .int capture.span.start).getD .absent
  | .endOf index => ((captures[index]?).map fun capture => .int capture.span.stop).getD .absent
  | .text => text
  | .start => .int span.start
  | .stop => .int span.stop
  | .str string => .str string
  | .list items => .list (evaluateAllWith text captures span items)
  | .node kind arguments => .node kind span (evaluateAllWith text captures span arguments)
  | .concat terms => Value.concatAll (evaluateAllWith text captures span terms)

/-- The values of several such expressions. -/
def evaluateAllWith (text : Value) (captures : List Capture) (span : Span) :
    List MapperExpr → List Value
  | [] => []
  | expr :: exprs =>
    evaluateWith text captures span expr :: evaluateAllWith text captures span exprs

end

mutual

/-- The input of an expression is used for `text()` alone. -/
theorem evaluate_eq_evaluateWith {text : Value}
    (htext : MapperExpr.text.evaluate captures input span = text) : ∀ expr : MapperExpr,
    expr.evaluate captures input span = expr.evaluateWith text captures span
  | .capture _ | .startOf _ | .endOf _ | .start | .stop | .str _ => by
    simp only [evaluate, evaluateWith]
  | .text => by rw [htext, evaluateWith]
  | .list items => by rw [evaluate, evaluateWith, evaluateAll_eq_evaluateAllWith htext items]
  | .node _ arguments => by
    rw [evaluate, evaluateWith, evaluateAll_eq_evaluateAllWith htext arguments]
  | .concat terms => by rw [evaluate, evaluateWith, evaluateAll_eq_evaluateAllWith htext terms]

theorem evaluateAll_eq_evaluateAllWith {text : Value}
    (htext : MapperExpr.text.evaluate captures input span = text) : ∀ exprs : List MapperExpr,
    evaluateAll captures input span exprs = evaluateAllWith text captures span exprs
  | [] => by rw [evaluateAll, evaluateAllWith]
  | expr :: exprs => by
    rw [evaluateAll, evaluateAllWith, evaluate_eq_evaluateWith htext expr,
      evaluateAll_eq_evaluateAllWith htext exprs]

end

/-- The two texts are the same exactly where the match has not gone backward. -/
theorem text_eq_textBetween_iff (h : Course.apart.Along input start [] stop) :
    MapperExpr.text.evaluate captures input ⟨start, stop⟩ =
      .str (Primitive.textBetween input start stop) ↔ start ≤ stop := by
  constructor
  · intro htext
    by_contra hlt
    rw [Nat.not_le] at hlt
    obtain ⟨hstart, hstop⟩ : IsOffset input start ∧ IsOffset input stop := by
      rcases h with rfl | h
      · exact absurd hlt (Nat.lt_irrefl _)
      · exact h
    refine Primitive.textBetween_ne_empty hstart hstop hlt ?_
    rw [evaluate, slice?, if_neg (Nat.not_le.2 hlt)] at htext
    exact (Value.str.inj htext).symm
  · intro hle
    rw [evaluate, Primitive.textBetween, Nat.min_eq_left hle, Nat.max_eq_right hle]

end MapperExpr

/-! ### Both backends -/

namespace Generated

open Host

/-- The expression that a generated parser has for `text()`. -/
theorem exists_matchedText :
    ∃ expression, expression? (substituteMapper "text()").toList = some expression ∧
      isMatchedText expression = true := by
  have hsome : (expression? (substituteMapper "text()").toList).isSome = true := by decide +kernel
  obtain ⟨expression, hexpression⟩ := Option.isSome_iff_exists.1 hsome
  have hmatched := matchedText_text
  rw [hexpression, Option.all_some] at hmatched
  exact ⟨expression, hexpression, hmatched⟩

/-- What `text()` is for an alternative that has matched.  A generated parser has the text between
the two ends; the interpreter has the same in a match that ends where it starts or later, and in no
other.  Then they agree on `text()` wherever it is in a mapper.  A match can end before it starts
only in a program with backward matching. -/
theorem text_eq_matchedText_iff {ν : Type} (host : HostCode ν) {program : Program}
    (hinternal : program.Every fun m => m.isExternal = false) {fuel id : Nat}
    {rule : CompiledRule} (hrule : program.rules[id]? = some rule)
    {alternative : CompiledAlternative} (halternative : alternative ∈ rule.alternatives)
    {param : Option String} {input : List Char} {start : Nat} {events : List Event}
    {captures : List Capture} {stop : Nat}
    (hrun : Program.matchItems (program.matcher fuel) alternative.items param input start =
      some (events, .success captures stop)) :
    (∃ expression, expression? (substituteMapper "text()").toList = some expression ∧
      ∀ locals, (host.evaluateIn expression ⟨param, locals, input, start, stop⟩).toValue host =
        .str (Primitive.textBetween input start stop)) ∧
    (MapperExpr.text.evaluate captures input ⟨start, stop⟩ =
      .str (Primitive.textBetween input start stop) ↔ start ≤ stop) ∧
    (start ≤ stop → ∀ mapper ∈ alternative.mapper,
      mapper.evaluate captures input ⟨start, stop⟩ =
        mapper.evaluateWith (.str (Primitive.textBetween input start stop)) captures
          ⟨start, stop⟩) ∧
    ((program.Every fun m => m.isBacktrack = false) → start ≤ stop) := by
  -- what is needed of the offsets is a course, so the run of the items tells it
  have hfollows : ∀ course : Course, program.Every course.Permits →
      course.Along input start events stop := by
    intro course hpermits
    have hitems : (Program.matchItems (program.matcher fuel) alternative.items param).Follows
        course :=
      Program.matchItems_follows fun item hitem captures =>
        Program.matcher_follows hpermits fuel _ (hpermits.ofItem hrule halternative hitem)
    have hstop := hitems input start
    rwa [hrun] at hstop
  have htext : MapperExpr.text.evaluate captures input ⟨start, stop⟩ =
      .str (Primitive.textBetween input start stop) ↔ start ≤ stop :=
    MapperExpr.text_eq_textBetween_iff
      (hfollows .apart (hinternal.mono fun _ => Course.apart_permits))
  refine ⟨?_, htext, fun hle mapper _ => ?_, fun hforward => ?_⟩
  · obtain ⟨expression, hexpression, hmatched⟩ := exists_matchedText
    refine ⟨expression, hexpression, fun locals => ?_⟩
    rw [HostCode.evaluateIn, if_pos hmatched, HostValue.toValue]
  · exact MapperExpr.evaluate_eq_evaluateWith (htext.2 hle) mapper
  · refine hfollows .forward ((hinternal.and hforward).mono fun m hm => ?_)
    exact Course.forward_permits (by rw [Matcher.isForward, hm.1, hm.2]; rfl)

end Generated

/-! ### A match that goes back -/

namespace Turning

open Generated Host

/-- An `x`, and then the same again, read backward. -/
def program : Program where
  rules :=
    [⟨.simple "a", false, [⟨[.literal "x", .rule 1], some (.capture 1)⟩], {}⟩,
      ⟨.simple "b", false, [⟨[.backtrack (.literal "x")], some .text⟩], {}⟩]

/-- What the backward match has captured. -/
def captures : List Capture :=
  [⟨.str "x", ⟨1, 0⟩⟩]

/-- The match goes from 1 back to 0.  A generated parser finds the `x` between them, and the
interpreter finds nothing. -/
theorem text_backward :
    Program.matchItems (program.matcher 3) [.backtrack (.literal "x")] none ['x'] 1 =
        some ([], .success captures 0) ∧
      ∀ (ν : Type) (host : HostCode ν),
        (∃ expression, expression? (substituteMapper "text()").toList = some expression ∧
          ∀ locals, (host.evaluateIn expression ⟨none, locals, ['x'], 1, 0⟩).toValue host =
            .str (Primitive.textBetween ['x'] 1 0)) ∧
        MapperExpr.text.evaluate captures ['x'] ⟨1, 0⟩ ≠
          .str (Primitive.textBetween ['x'] 1 0) := by
  have hrun : Program.matchItems (program.matcher 3) [.backtrack (.literal "x")] none ['x'] 1 =
      some ([], .success captures 0) := rfl
  have hinternal : program.Every fun m => m.isExternal = false := by decide
  refine ⟨hrun, fun ν host => ?_⟩
  obtain ⟨hgenerated, hinterpreted, -, -⟩ :=
    text_eq_matchedText_iff host hinternal (show program.rules[1]? = some _ from rfl)
      (List.mem_singleton_self _) hrun
  exact ⟨hgenerated, fun h => absurd (hinterpreted.1 h) (by decide)⟩

/-- Both backends do not give `text()` the same meaning in every match. -/
theorem not_text_eq_matchedText :
    ¬ ∀ program : Program, (program.Every fun m => m.isExternal = false) →
      ∀ (fuel id : Nat) (rule : CompiledRule), program.rules[id]? = some rule →
      ∀ alternative ∈ rule.alternatives, alternative.mapper = some .text →
        ∀ param input start events captures stop,
          Program.matchItems (program.matcher fuel) alternative.items param input start =
              some (events, .success captures stop) →
            MapperExpr.text.evaluate captures input ⟨start, stop⟩ =
              .str (Primitive.textBetween input start stop) := by
  intro h
  have hsame : MapperExpr.text.evaluate captures ['x'] ⟨1, 0⟩ =
      .str (Primitive.textBetween ['x'] 1 0) :=
    h program (by decide) 3 1 _ rfl _ (List.mem_singleton_self _) rfl none ['x'] 1 [] captures 0 rfl
  cases hsame

end Turning

end Peg
