/-
Peg/Proofs/Program/Furthest.lean

The failure that is reported is the furthest one.

No record of the furthest failure is kept.  It is the rule of commitment that
makes it the one that is reported: a failure is passed over only where the
attempt started, and whatever goes on from there stops there or further on.

    start ≤ stop   and   every event is at most at stop

is therefore a course (`Course.furthest`), for successes and failures alike.
Lookahead and `attempt` do not permit it, since they forget how far they
have come.
-/
import Peg.Proofs.Program.Course

namespace Peg

/-! ### The course -/

/-- Nothing happens further on than where the run stops. -/
def Course.furthest : Course where
  Along _ start events stop := start ≤ stop ∧ ∀ event ∈ events, event.offset ≤ stop
  stay _ _ := ⟨Nat.le_refl _, nofun⟩
  trans := by
    intro input start events middle later stop h h'
    refine ⟨h.1.trans h'.1, fun event hevent => ?_⟩
    rcases List.mem_append.1 hevent with hevent | hevent
    · exact (h.2 event hevent).trans h'.1
    · exact h'.2 event hevent
  read _ _ _ := ⟨Nat.le_add_right .., nofun⟩
  event _ _ := by
    refine ⟨Nat.le_refl _, fun event hevent => ?_⟩
    rw [List.mem_singleton.1 hevent]

/-- Matchers that report every failure where it has happened. -/
def Matcher.isDirect : Matcher → Bool
  | .negative _ | .look _ | .attempt _ | .backtrack _ | .external _ _ _ => false
  | _ => true

theorem Course.furthest_permits {m : Matcher} (h : m.isDirect = true) :
    Course.furthest.Permits m := by
  cases m with
  | negative | look | attempt | backtrack | external => cases h
  | _ => trivial

namespace Program

variable {program : Program} {fuel id : Nat} {param : Option String} {input : List Char}
variable {start : Nat} {events : List Event}

theorem offset_le_failure (hprogram : program.Every fun part => part.isDirect = true)
    {failure : Failure}
    (hrun : program.call fuel id param input start = some (events, .failure failure)) :
    ∀ event ∈ events, event.offset ≤ failure.position := by
  have hfollows := call_follows (hprogram.mono fun _ => Course.furthest_permits) fuel id param
    input start
  rw [hrun] at hfollows
  exact hfollows.2

theorem offset_le_stop (hprogram : program.Every fun part => part.isDirect = true)
    {value : Value} {stop : Nat}
    (hrun : program.call fuel id param input start = some (events, .success value stop)) :
    ∀ event ∈ events, event.offset ≤ stop := by
  have hfollows := call_follows (hprogram.mono fun _ => Course.furthest_permits) fuel id param
    input start
  rw [hrun] at hfollows
  exact hfollows.2

/-- The failure of a match is the furthest one, also when it is what is left of the subject. -/
theorem offset_le_result (hprogram : program.Every fun part => part.isDirect = true)
    {full : Bool} {failure : Failure} {outcome : Outcome Value}
    (hrun : program.call fuel id param input start = some (events, outcome))
    (hresult : result input full (some (events, outcome)) = .error (.failed failure)) :
    ∀ event ∈ events, event.offset ≤ failure.position := by
  rcases outcome with ⟨value, stop⟩ | reported | fault
  · unfold result at hresult
    dsimp only at hresult
    split at hresult
    · -- what is left is reported where the success ends
      cases hresult
      exact offset_le_stop hprogram hrun
    · cases hresult
  · cases hresult
    exact offset_le_failure hprogram hrun
  · cases hresult

theorem startRule_ne_failed (entry : Option String) (failure : Failure) :
    program.startRule entry ≠ .error (.failed failure) := by
  rcases entry with - | name
  · rw [startRule]
    rcases program.entry? with - | id <;> simp
  · rw [startRule]
    rcases program.ruleId? name with - | id <;> simp

/-- A match that fails is the run of a rule from the beginning of the subject. -/
theorem exists_run_of_execute {subject : List Char} {entry : Option String} {full : Bool}
    {failure : Failure} (h : program.execute subject entry full = .error (.failed failure)) :
    ∃ id outcome, program.call (program.fuel subject) id none subject 0 =
        some ((program.executeWithEvents subject entry full).1, outcome) ∧
      result subject full (some ((program.executeWithEvents subject entry full).1, outcome)) =
        .error (.failed failure) := by
  unfold execute at h
  rcases hentry : program.startRule entry with error | id
  · -- without a rule to start with there is another error
    simp only [executeWithEvents, hentry] at h
    obtain rfl := Except.error.inj h
    exact absurd hentry (startRule_ne_failed entry failure)
  · simp only [executeWithEvents, hentry] at h ⊢
    rcases hrun : program.runRule id subject 0 with - | ⟨events, outcome⟩
    · rw [hrun] at h
      cases h
    · rw [hrun] at h
      exact ⟨id, outcome, hrun, h⟩

/-- The reported failure is the furthest one.  No primitive matcher is refused and no rule is
entered further on than where the execution of a rule fails, and none is refused further on than
where it succeeds; so none is refused further on than the failure of a match. -/
theorem failure_is_furthest (hprogram : program.Every fun part => part.isDirect = true) :
    (∀ fuel id param input start events failure,
      program.call fuel id param input start = some (events, .failure failure) →
        (∀ refusal, .refused refusal ∈ events → refusal.position ≤ failure.position) ∧
        ∀ rule literal text offset, .entered rule literal text offset ∈ events →
          offset ≤ failure.position) ∧
    (∀ fuel id param input start events value stop,
      program.call fuel id param input start = some (events, .success value stop) →
        ∀ refusal, .refused refusal ∈ events → refusal.position ≤ stop) ∧
    (∀ fuel id subject full events outcome failure,
      program.call fuel id none subject 0 = some (events, outcome) →
      result subject full (some (events, outcome)) = .error (.failed failure) →
        ∀ refusal, .refused refusal ∈ events → refusal.position ≤ failure.position) ∧
    ∀ subject entry full failure,
      program.execute subject entry full = .error (.failed failure) →
        ∀ refusal, .refused refusal ∈ (program.executeWithEvents subject entry full).1 →
          refusal.position ≤ failure.position := by
  refine ⟨fun fuel id param input start events failure hrun => ⟨fun refusal hrefusal => ?_,
      fun rule literal text offset hentered => ?_⟩,
    fun fuel id param input start events value stop hrun refusal hrefusal => ?_,
    fun fuel id subject full events outcome failure hrun hresult refusal hrefusal => ?_,
    fun subject entry full failure hresult refusal hrefusal => ?_⟩
  · exact offset_le_failure hprogram hrun _ hrefusal
  · exact offset_le_failure hprogram hrun _ hentered
  · exact offset_le_stop hprogram hrun _ hrefusal
  · exact offset_le_result hprogram hrun hresult _ hrefusal
  · obtain ⟨id, outcome, hrun, hresult⟩ := exists_run_of_execute hresult
    exact offset_le_result hprogram hrun hresult _ hrefusal

end Program

/-! ### Items in brackets -/

namespace Bracketed

/-- Any number of characters in brackets, and a semicolon after them. -/
def program : Program :=
  ⟨[⟨.simple "list", false, [⟨[.repeated (.rule 1) .any, .literal ";"], none⟩], {}⟩,
    ⟨.simple "item", false, [⟨[.literal "[", .any, .literal "]"], none⟩], {}⟩]⟩

/-- The events up to where the semicolon is expected after one item. -/
def events (input : List Char) : List Event :=
  [.entered 0 none input 0, .entered 1 none input 0, .matched 1 3, .entered 1 none input 3,
    .refused ⟨"[", 3⟩, .failed 1 ⟨"[", 3⟩]

/-- The refusal that ends the repetition is where the whole fails without a semicolon, and before
the end of the match with one. -/
theorem refused_at_furthest :
    (program.call 5 0 none "[1]y".toList 0 =
        some (events "[1]y".toList ++ [.refused ⟨";", 3⟩, .failed 0 ⟨";", 3⟩],
          .failure ⟨";", 3⟩) ∧
      (∀ refusal, .refused refusal ∈
        events "[1]y".toList ++ [.refused ⟨";", 3⟩, .failed 0 ⟨";", 3⟩] → refusal.position ≤ 3) ∧
      ∀ rule literal text offset, .entered rule literal text offset ∈
        events "[1]y".toList ++ [.refused ⟨";", 3⟩, .failed 0 ⟨";", 3⟩] → offset ≤ 3) ∧
    (program.call 5 0 none "[1];y".toList 0 =
        some (events "[1];y".toList ++ [.matched 0 4],
          .success (.tuple [.list [.tuple [.str "[", .str "1", .str "]"]], .str ";"]) 4) ∧
      ∀ refusal, .refused refusal ∈ events "[1];y".toList ++ [.matched 0 4] →
        refusal.position ≤ 4) ∧
    program.execute "[1];y".toList none true = .error (.failed ⟨"<eof>", 4⟩) ∧
    ∀ refusal, .refused refusal ∈ (program.executeWithEvents "[1];y".toList none true).1 →
      refusal.position ≤ 4 := by
  have hfailed : program.call 5 0 none "[1]y".toList 0 =
      some (events "[1]y".toList ++ [.refused ⟨";", 3⟩, .failed 0 ⟨";", 3⟩],
        .failure ⟨";", 3⟩) := rfl
  have hmatched : program.call 5 0 none "[1];y".toList 0 =
      some (events "[1];y".toList ++ [.matched 0 4],
        .success (.tuple [.list [.tuple [.str "[", .str "1", .str "]"]], .str ";"]) 4) := rfl
  have hleft : program.execute "[1];y".toList none true = .error (.failed ⟨"<eof>", 4⟩) := rfl
  obtain ⟨hfailure, hsuccess, -, hexecute⟩ :=
    @Program.failure_is_furthest program (by decide)
  obtain ⟨hrefused, hentered⟩ := hfailure _ _ _ _ _ _ _ hfailed
  exact ⟨⟨hfailed, hrefused, hentered⟩, ⟨hmatched, hsuccess _ _ _ _ _ _ _ _ hmatched⟩, hleft,
    hexecute _ _ _ _ hleft⟩

end Bracketed

end Peg
