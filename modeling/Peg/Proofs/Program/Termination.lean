/-
Peg/Proofs/Program/Termination.lean

Programs without left recursion terminate.

The check for left recursion leaves a rank for every rule that drops along
left calls.  What is left to do for a matcher at an offset is then measured by
three numbers, the most significant first: the bytes that remain, a bound on
the ranks of the rules it may call where it starts, and its size.

* A call keeps the bytes that remain and goes to a rule of smaller rank.
* Inside a group or a function the size drops.
* The items of a sequence are called where it starts as long as those before
  them have read nothing, so they are nullable, and the bound holds for them
  too.  Once something has been read, and in all attempts of a repetition but
  the first, fewer bytes remain and any bound will do.

`work` is the number that stands for the three, and it is enough fuel.  For a
template the calls are those for its kind of literal: `hasEmptyInstance`
covers the empty literal, wherever it is given.
-/
import Mathlib.Tactic.GCongr
import Mathlib.Tactic.Ring
import Peg.Proofs.Program.Fuel
import Peg.Proofs.Program.LeftCalls
import Peg.Proofs.Program.Progress
import Peg.Proofs.Run.Ends

namespace Peg

namespace Program

variable {program : Program} {rank : Nat → Nat}

/-! ### Work -/

/-- What is left to do with so many bytes, a bound on the ranks of the rules called first and the
size of a matcher. -/
def work (program : Program) (remaining bound depth : Nat) : Nat :=
  (remaining * (program.rules.length + 1) + bound) * (program.size + 1) + depth

theorem work_lt_of_bound {remaining bound bound' depth depth' : Nat} (hbound : bound' < bound)
    (hdepth : depth' ≤ program.size) :
    program.work remaining bound' depth' < program.work remaining bound depth := by
  have hle : (remaining * (program.rules.length + 1) + bound' + 1) * (program.size + 1) ≤
      (remaining * (program.rules.length + 1) + bound) * (program.size + 1) :=
    Nat.mul_le_mul_right _ (by omega)
  rw [Nat.add_one_mul] at hle
  unfold work
  omega

theorem work_lt_of_remaining {remaining remaining' bound bound' depth depth' : Nat}
    (hremaining : remaining' < remaining) (hbound : bound' ≤ program.rules.length)
    (hdepth : depth' ≤ program.size) :
    program.work remaining' bound' depth' < program.work remaining bound depth := by
  have hrules : (remaining' + 1) * (program.rules.length + 1) ≤
      remaining * (program.rules.length + 1) := Nat.mul_le_mul_right _ hremaining
  have hle : (remaining' * (program.rules.length + 1) + bound' + 1) * (program.size + 1) ≤
      (remaining * (program.rules.length + 1) + bound) * (program.size + 1) :=
    Nat.mul_le_mul_right _ (by rw [Nat.add_one_mul] at hrules; omega)
  rw [Nat.add_one_mul] at hle
  unfold work
  omega

theorem le_work (program : Program) (remaining bound depth : Nat) :
    remaining + depth ≤ program.work remaining bound depth := by
  refine Nat.add_le_add_right ?_ depth
  calc remaining ≤ remaining * (program.rules.length + 1) := Nat.le_mul_of_pos_right _ (by omega)
    _ ≤ remaining * (program.rules.length + 1) + bound := Nat.le_add_right ..
    _ ≤ _ := Nat.le_mul_of_pos_right _ (by omega)

/-- The fuel of a run covers a rule at any offset. -/
theorem work_lt_fuel (program : Program) (input : List Char) (start : Nat) :
    program.work (Text.size input - start) program.rules.length program.size <
      program.fuel input := by
  have hremaining : Text.size input - start ≤ Text.size input := Nat.sub_le ..
  unfold work fuel
  generalize Text.size input - start = remaining at hremaining
  generalize Text.size input = total, program.rules.length = rules, program.size = parts at *
  have hstates : (remaining * (rules + 1) + rules) * (parts + 1) + parts <
      (total + 2) * (rules + 2) * (parts + 2) := by
    calc (remaining * (rules + 1) + rules) * (parts + 1) + parts
        < (remaining + 1) * (rules + 1) * (parts + 1) := by ring_nf; omega
      _ ≤ (total + 2) * (rules + 2) * (parts + 2) := by gcongr <;> omega
  exact hstates.trans_le (Nat.le_mul_self _)

/-! ### Primitive matchers -/

theorem literal_ends (string : String) (input : List Char) (start : Nat) :
    (Run.primitive ((Primitive.literal string input start).map Value.str)).Ends := by
  unfold Primitive.literal
  split
  · exact .success _ _ _
  · exact .failure _ _

theorem regex_ends (expression : Regex) (description : String) (input : List Char) (start : Nat) :
    (Run.primitive ((Primitive.regex expression description input start).map Value.str)).Ends := by
  unfold Primitive.regex
  split
  · exact .failure _ _
  · split
    · exact .failure _ _
    · exact .success _ _ _

theorem anyChar_ends (input : List Char) (start : Nat) :
    (Run.primitive ((Primitive.anyChar input start).map Value.str)).Ends := by
  unfold Primitive.anyChar
  split
  · exact .success _ _ _
  · exact .failure _ _

/-! ### Sequences, rules and repetitions -/

variable {step : Step} {param : Option String} {emptyParam : Bool} {input : List Char}

/-- The items of a sequence end one after the other: those reached without reading anything are
among the left calls, and those reached later have fewer bytes left. -/
theorem sequence_ends (hranked : program.Ranked rank) {items : List Matcher} {fuel depth : Nat}
    (hdepth : depth ≤ program.size)
    (hprogress : ∀ item ∈ items, ∀ captures start,
      program.Progresses emptyParam input start item (step ⟨param, captures⟩ item input start))
    (hends : ∀ item ∈ items, ∀ bound ≤ program.rules.length,
      program.CallsBelow rank bound (item.leftCalls program.nullable emptyParam) →
      ∀ captures start, program.work (Text.size input - start) bound depth < fuel →
        (step ⟨param, captures⟩ item input start).Ends)
    (captures : List Capture) {bound start : Nat} (hbound : bound ≤ program.rules.length)
    (hcalls : program.CallsBelow rank bound (leftCallsOfAll program.nullable emptyParam items))
    (hfuel : program.work (Text.size input - start) bound depth < fuel) :
    (Combinator.sequence (items.map fun item captures input start =>
      Run.andThen (step ⟨param, captures⟩ item input start) fun value stop =>
        .done (.success ⟨value, ⟨start, stop⟩⟩ stop)) captures input start).Ends := by
  induction items generalizing captures bound start with
  | nil => exact .success _ _ _
  | cons item items ih =>
    have hitem := hends item (List.mem_cons_self ..) bound hbound
      (fun id hid => hcalls id (List.mem_append_left _ hid)) captures start hfuel
    have hstop := hprogress item (List.mem_cons_self ..) captures start
    have hrest := fun captures bound start => @ih
      (fun item hmem => hprogress item (List.mem_cons_of_mem _ hmem))
      (fun item hmem => hends item (List.mem_cons_of_mem _ hmem)) captures bound start
    refine Run.Ends.andThen (Q := fun _ => True)
      (P := fun _ stop => Progress input start (item.isNullable program.nullable emptyParam) stop)
      (hitem.andThen hstop fun _ _ _ => .success _ _ _) (hstop.andThen fun _ _ h => h) ?_
    -- an item that stays keeps the bound of the ranks, and one that moves allows every rank again
    rintro capture stop (⟨rfl, hnullable⟩ | ⟨hlt, hle⟩)
    · refine hrest _ bound stop hbound (fun id hid => hcalls id ?_) hfuel
      rw [leftCallsOfAll, if_pos hnullable]
      exact List.mem_append_right _ hid
    · refine hrest _ program.rules.length stop (Nat.le_refl _) (hranked.callsBelow_length _) ?_
      exact (work_lt_of_remaining (by omega) (Nat.le_refl _) hdepth).trans hfuel

/-- The matchers of a program end on an input when there is more fuel than work. -/
def EndsWithin (program : Program) (rank : Nat → Nat) (input : List Char) (fuel : Nat) : Prop :=
  ∀ {m : Matcher} {param : Option String} {emptyParam : Bool} {bound : Nat},
    program.Contains m → m.Fits param emptyParam → bound ≤ program.rules.length →
    program.CallsBelow rank bound (m.leftCalls program.nullable emptyParam) →
    ∀ captures start,
      program.work (Text.size input - start) bound m.parts.length < fuel →
      (program.matcher fuel ⟨param, captures⟩ m input start).Ends

variable {fuel bound start : Nat}

theorem matchItems_ends (hprogram : program.IsForwardIn input) (hranked : program.Ranked rank)
    (hmatcher : program.EndsWithin rank input fuel) {items : List Matcher}
    (hitems : ∀ item ∈ items, program.Contains item ∧ item.Fits param emptyParam)
    {depth : Nat} (hparts : ∀ item ∈ items, item.parts.length ≤ depth)
    (hdepth : depth ≤ program.size) (hbound : bound ≤ program.rules.length)
    (hcalls : program.CallsBelow rank bound (leftCallsOfAll program.nullable emptyParam items))
    (hfuel : program.work (Text.size input - start) bound depth < fuel) :
    (matchItems (program.matcher fuel) items param input start).Ends := by
  refine sequence_ends hranked hdepth (fun item hitem captures start => ?_)
    (fun item hitem bound hbound hcalls captures start hwork => ?_) [] hbound hcalls hfuel
  · obtain ⟨hcontains, hfits⟩ := hitems item hitem
    exact hprogram.progress fuel hcontains hfits captures start
  · obtain ⟨hcontains, hfits⟩ := hitems item hitem
    exact hmatcher hcontains hfits hbound hcalls captures start
      ((Nat.add_le_add_left (hparts item hitem) _).trans_lt hwork)

/-- A rule ends when the items of its alternatives do. -/
theorem matchRule_ends_of {id : Nat} {rule : CompiledRule} (hrule : program.rules[id]? = some rule)
    (h : ∀ alternative ∈ rule.alternatives,
      (matchItems step alternative.items param input start).Ends) :
    (program.matchRule step id param input start).Ends := by
  have hchoice : (Combinator.choice (rule.alternatives.map fun alternative =>
      matchAlternative step alternative param) input start).Ends := by
    refine Combinator.choice_ends fun matching hmatching => ?_
    obtain ⟨alternative, halternative, rfl⟩ := List.mem_map.1 hmatching
    exact (h alternative halternative).andThen (.any _) fun _ _ _ => .success _ _ _
  unfold matchRule
  simp only [hrule]
  generalize Combinator.choice _ input start = run at hchoice
  cases hchoice with
  | success events value stop => exact .success _ _ _
  | failure events failure => exact .failure _ _

theorem matchRule_ends (hprogram : program.IsForwardIn input) (hranked : program.Ranked rank)
    (hmatcher : program.EndsWithin rank input fuel) {id : Nat} {rule : CompiledRule}
    (hrule : program.rules[id]? = some rule)
    (hfits : ∀ alternative ∈ rule.alternatives, ∀ item ∈ alternative.items,
      item.Fits param emptyParam)
    (hbound : bound ≤ program.rules.length)
    (hcalls : ∀ alternative ∈ rule.alternatives, program.CallsBelow rank bound
      (leftCallsOfAll program.nullable emptyParam alternative.items))
    (hfuel : program.work (Text.size input - start) bound program.size < fuel) :
    (program.matchRule (program.matcher fuel) id param input start).Ends := by
  refine matchRule_ends_of hrule fun alternative halternative => ?_
  have hcontains := fun item (hitem : item ∈ alternative.items) =>
    Contains.ofItem hrule halternative hitem
  exact matchItems_ends hprogram hranked hmatcher
    (fun item hitem => ⟨hcontains item hitem, hfits alternative halternative item hitem⟩)
    (fun item hitem => (hcontains item hitem).length_le_size) (Nat.le_refl _) hbound
    (hcalls alternative halternative) hfuel

/-- A rule has a smaller rank than its callers, so there is enough fuel for its call. -/
theorem calledRule_ends (hprogram : program.IsForwardIn input) (hranked : program.Ranked rank)
    (hmatcher : program.EndsWithin rank input fuel) {id : Nat} {rule : CompiledRule}
    (hrule : program.rules[id]? = some rule)
    (hfits : ∀ alternative ∈ rule.alternatives, ∀ item ∈ alternative.items,
      item.Fits param (program.hasEmptyInstance id))
    (hbound : bound ≤ program.rules.length)
    (hcalls : program.CallsBelow rank bound [id]) {depth : Nat} (hdepth : 0 < depth)
    (hfuel : program.work (Text.size input - start) bound depth < fuel + 1) :
    (program.matchRule (program.matcher fuel) id param input start).Ends := by
  have hrank : rank id < bound :=
    hcalls id (List.mem_singleton_self _) (List.getElem?_eq_some_iff.1 hrule).1
  refine matchRule_ends hprogram hranked hmatcher hrule hfits (hrank.le.trans hbound)
    (fun alternative halternative => hranked.callsBelow hrule halternative) ?_
  have : program.work (Text.size input - start) (rank id) program.size <
      program.work (Text.size input - start) bound 0 :=
    work_lt_of_bound hrank (Nat.le_refl _)
  unfold work at this hfuel ⊢
  omega

theorem repeated_ends (hprogram : program.IsForwardIn input) (hranked : program.Ranked rank)
    (hmatcher : program.EndsWithin rank input fuel) {m : Matcher} (hm : program.Contains m)
    (hfits : m.Fits param emptyParam) (captures : List Capture)
    (hbound : bound ≤ program.rules.length)
    (hcalls : program.CallsBelow rank bound (m.leftCalls program.nullable emptyParam))
    (hfuel : program.work (Text.size input - start) bound m.parts.length < fuel) :
    (Combinator.many fuel (program.matcher fuel ⟨param, captures⟩ m) input start).Ends := by
  -- the invariant is that the fuel suffices for what is left of the text
  refine Combinator.many_ends (f := fun start => Text.size input - start)
    (I := fun start => ∃ bound ≤ program.rules.length,
      program.CallsBelow rank bound (m.leftCalls program.nullable emptyParam) ∧
      program.work (Text.size input - start) bound m.parts.length < fuel)
    ?_ ?_ ⟨bound, hbound, hcalls, hfuel⟩ ?_
  · rintro start ⟨bound, hbound, hcalls, hfuel⟩
    exact hmatcher hm hfits hbound hcalls captures start hfuel
  · rintro start ⟨bound, hbound, hcalls, hfuel⟩
    have hprogress := hprogram.progress fuel hm hfits captures start
    refine hprogress.mono ?_ fun _ h => h
    rintro _ stop (⟨rfl, -⟩ | ⟨hlt, hle⟩)
    · exact .inl rfl
    · -- after an attempt that moved every rank is allowed again, for less text
      have hless : Text.size input - stop < Text.size input - start := by omega
      refine .inr ⟨⟨_, Nat.le_refl _, hranked.callsBelow_length _, ?_⟩, hless⟩
      exact (work_lt_of_remaining hless (Nat.le_refl _) hm.length_le_size).trans hfuel
  · have := program.le_work (Text.size input - start) bound m.parts.length
    show Text.size input - start < fuel
    omega

/-! ### All matchers -/

theorem endsWithin (hprogram : program.IsForwardIn input) (hranked : program.Ranked rank) (fuel : Nat) :
    program.EndsWithin rank input fuel := by
  induction fuel with
  | zero =>
    intro m param emptyParam bound _ _ _ _ captures start hfuel
    omega
  | succ fuel ih =>
    intro m param emptyParam bound hm hfits hbound hcalls captures start hfuel
    have hresolved := (hm.every hprogram.resolved).self
    -- the body of a function or a repetition has the same calls and is smaller
    have hsmaller : ∀ {inner : Matcher}, m.parts = m :: inner.parts →
        program.work (Text.size input - start) bound inner.parts.length < fuel := by
      intro inner hparts
      rw [hparts, List.length_cons] at hfuel
      unfold work at hfuel ⊢
      omega
    have hinner : ∀ {inner : Matcher}, m.parts = m :: inner.parts →
        inner.Fits param emptyParam →
        program.CallsBelow rank bound (inner.leftCalls program.nullable emptyParam) →
        (program.matcher fuel ⟨param, captures⟩ inner input start).Ends :=
      fun hparts hfits hcalls =>
        ih (hm.ofBody hparts) hfits hbound hcalls captures start (hsmaller hparts)
    cases m with
    | literal string => exact literal_ends ..
    | regex expression description => exact regex_ends ..
    | any => exact anyChar_ends ..
    | rule id =>
      have hcalled := hresolved
      obtain ⟨rule, hrule, -⟩ := hcalled
      refine calledRule_ends hprogram hranked ih hrule ?_ hbound hcalls Nat.one_pos hfuel
      exact fun alternative halternative item hitem =>
        hresolved.fits hrule halternative hitem _ _
    | param => exact literal_ends ..
    | «variable» index => exact literal_ends ..
    | template id argument =>
      refine calledRule_ends hprogram hranked ih (List.getElem?_eq_getElem hresolved) ?_ hbound
        hcalls Nat.one_pos hfuel
      intro alternative halternative item hitem part hpart _ hempty
      -- the empty literal is given here
      obtain ⟨caller, hcaller, hsublist⟩ := hm
      obtain rfl : argument = "" := hempty
      exact hasEmptyInstance_of_mem hcaller (hsublist.subset (List.mem_singleton_self _))
    | negative inner =>
      exact (Combinator.negative_ends (hinner rfl hfits.negative hcalls)).mapValue _
    | look inner => exact Combinator.look_ends (hinner rfl hfits.look hcalls)
    | attempt inner => exact Combinator.attempt_ends (hinner rfl hfits.attempt hcalls)
    | backtrack inner => cases (hm.every hprogram.backtrack).self
    | external name transformer inner => cases (hm.every hprogram.external).self
    | group items important =>
      have hparts : (Matcher.group items important).parts.length = (partsOfAll items).length + 1 :=
        rfl
      have hsize := hm.length_le_size
      refine (matchItems_ends hprogram hranked ih
        (fun item hitem => ⟨hm.ofMember hitem, hfits.group item hitem⟩)
        (fun item hitem => (parts_sublist_partsOfAll hitem).length_le) (by omega)
        hbound hcalls ?_).mapValue _
      unfold work at hfuel ⊢
      omega
    | repeated inner repetition =>
      have hbody := hinner rfl hfits.repeated hcalls
      have hcontains : program.Contains inner := hm.ofBody rfl
      cases repetition with
      | optional => exact (Combinator.optional_ends hbody).mapValue _
      | any =>
        exact (repeated_ends hprogram hranked ih hcontains hfits.repeated captures hbound hcalls
          (hsmaller rfl)).mapValue _
      | oneOrMore =>
        refine Run.Ends.mapValue _ (hbody.andThen (hprogram.progress fuel hcontains
          hfits.repeated captures start) ?_)
        rintro first stop (⟨rfl, -⟩ | ⟨hlt, hle⟩)
        · exact (repeated_ends hprogram hranked ih hcontains hfits.repeated captures hbound hcalls
            (hsmaller rfl)).mapValue _
        · refine (repeated_ends hprogram hranked ih hcontains hfits.repeated captures
            (Nat.le_refl _) (hranked.callsBelow_length _) ?_).mapValue _
          exact (work_lt_of_remaining (by omega) (Nat.le_refl _)
            hcontains.length_le_size).trans (hsmaller rfl)

/-- A rule of a program without left recursion ends, whatever its parameter is and whether or not
the program instantiates it so. -/
theorem rule_ends (hprogram : program.IsForwardIn input)
    (hchecked : program.checkLeftRecursion program.nullable = .ok ()) {id : Nat}
    (hid : id < program.rules.length) (param : Option String) (start : Nat) :
    (program.matchRule (matcher program (program.fuel input)) id param input start).Ends := by
  obtain ⟨rank, hranked⟩ := exists_ranked hchecked
  have hfits : ∀ alternative ∈ program.rules[id].alternatives, ∀ item ∈ alternative.items,
      item.Fits param true := fun _ _ _ _ _ _ _ _ => rfl
  exact matchRule_ends hprogram hranked (endsWithin hprogram hranked _)
    (List.getElem?_eq_getElem hid) hfits (Nat.le_refl _)
    (fun _ _ => hranked.callsBelow_length _) (program.work_lt_fuel input start)

/-- So it does when it is run on its own; then the parameter is the empty literal. -/
theorem runRule_ends (hprogram : program.IsForward)
    (hchecked : program.checkLeftRecursion program.nullable = .ok ()) {id : Nat}
    (hid : id < program.rules.length) (input : List Char) (start : Nat) :
    (program.runRule id input start).Ends :=
  rule_ends (hprogram.isForwardIn input) hchecked hid none start

end Program

end Peg
