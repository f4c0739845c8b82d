/-
Peg/Proofs/Program/Layered.lean

Programs without recursion.

A program is layered when its rules only call rules that are declared after
them.  Backward matching is allowed where its place does not count: below a
lookahead, or a negation.  Then every success of a rule goes forward
(`matcher_steady`), and every run ends (`call_ends`).

The check for left recursion does not help with backward matching, for what is
read again is not less than before.  Without recursion it takes no more than
the order of the rules: a call goes to a rule of smaller rank, anything else
to a smaller matcher, and a repetition makes as many attempts as there are
bytes.  This holds for texts up to a size that is fixed in advance, since the
text that is read backward is no longer than the one it is part of.
-/
import Peg.Proofs.Program.Course
import Peg.Proofs.Program.Termination
import Peg.Proofs.Text.Boundary

namespace Peg

open Text

/-! ### Steady matchers -/

mutual

/-- Whether a matcher never stops before it starts. -/
def Matcher.isSteady : Matcher → Bool
  | .backtrack _ | .external _ _ _ => false
  | .attempt inner | .repeated inner _ => inner.isSteady
  | .group items _ => areSteady items
  | .literal _ | .regex _ _ | .any | .rule _ | .param | .variable _ | .template _ _
  | .negative _ | .look _ => true

/-- Whether several matchers are steady. -/
def areSteady : List Matcher → Bool
  | [] => true
  | item :: items => item.isSteady && areSteady items

end

theorem areSteady_iff {items : List Matcher} :
    areSteady items = true ↔ ∀ item ∈ items, item.isSteady = true := by
  induction items with
  | nil => simp [areSteady]
  | cons item items ih => rw [areSteady, Bool.and_eq_true, ih, List.forall_mem_cons]

namespace Program

variable {program : Program} {step : Step} {param : Option String} {input : List Char}
variable {start : Nat}

/-- Whether what the rules of a program are made of is steady. -/
def isSteady (program : Program) : Bool :=
  program.rules.all fun rule => rule.alternatives.all fun alternative =>
    areSteady alternative.items

theorem isSteady_of_mem (h : program.isSteady = true) {id : Nat} {rule : CompiledRule}
    (hrule : program.rules[id]? = some rule) {alternative : CompiledAlternative}
    (halternative : alternative ∈ rule.alternatives) {item : Matcher}
    (hitem : item ∈ alternative.items) : item.isSteady = true := by
  rw [isSteady, List.all_eq_true] at h
  have hrule := h rule (List.mem_of_getElem? hrule)
  rw [List.all_eq_true] at hrule
  exact areSteady_iff.1 (hrule alternative halternative) item hitem

/-- A run whose success goes forward, or stays. -/
abbrev Steady (input : List Char) (start : Nat) {α : Type} (run : Run α) : Prop :=
  run.Ensures (fun _ stop => Progress input start true stop) fun _ => True

theorem matchItems_steady {items : List Matcher}
    (h : ∀ item ∈ items, ∀ captures start,
      Steady input start (step ⟨param, captures⟩ item input start))
    (start : Nat) : Steady input start (matchItems step items param input start) := by
  refine matchItems_keeps (P := fun _ stop => Progress input start true stop)
    (fun item hitem captures middle hmiddle => ?_) (.stay input start)
  exact (h item hitem captures middle).mono (fun _ _ hstop => hmiddle.trans hstop) fun _ h => h

theorem matchRule_steady {id : Nat}
    (h : ∀ rule, program.rules[id]? = some rule → ∀ alternative ∈ rule.alternatives,
      ∀ item ∈ alternative.items, ∀ captures start,
        Steady input start (step ⟨param, captures⟩ item input start)) :
    Steady input start (program.matchRule step id param input start) := by
  refine matchRule_ensures (fun rule hrule alternative halternative => ?_)
    fun _ _ _ _ stop hstop => hstop.trans (Primitive.skipBlank_progress input stop)
  exact (matchItems_steady (h rule hrule alternative halternative) start).andThen
    fun _ _ hstop => hstop

end Program

theorem Combinator.many_steady {α : Type} {body : Matching α} {input : List Char}
    (h : ∀ start, Program.Steady input start (body input start)) (fuel start : Nat) :
    Program.Steady input start (many fuel body input start) := by
  refine many_ensures (I := fun _ => True) (P := fun start _ stop => Progress input start true stop)
    (fun start _ => .stay input start) (fun start _ => ?_) trivial
  exact (h start).mono (fun _ _ hstop => ⟨trivial, fun _ _ hlast => hstop.trans hlast⟩)
    fun _ h => h

/-- Where a match has gone forward, its text is the one between its ends. -/
theorem MapperExpr.evaluate_text {input : List Char} {start stop : Nat}
    (h : Progress input start true stop) (captures : List Capture) :
    MapperExpr.text.evaluate captures input ⟨start, stop⟩ =
      .str (Primitive.textBetween input start stop) := by
  have hle : start ≤ stop := h.elim (fun h => h.1.ge) fun h => h.1.le
  rw [MapperExpr.evaluate, Primitive.textBetween, Nat.min_eq_left hle, Nat.max_eq_right hle]

/-- A steady repetition makes as many attempts as there are bytes, and one more. -/
theorem Combinator.many_ends_of_steady {α : Type} {body : Matching α} {input : List Char}
    (hends : ∀ start, (body input start).Ends)
    (h : ∀ start, Program.Steady input start (body input start)) {fuel : Nat}
    (hfuel : Text.size input < fuel) (start : Nat) : (many fuel body input start).Ends := by
  refine many_ends (I := fun _ => True) (f := fun start => Text.size input - start)
    (fun start _ => hends start) (fun start _ => (h start).mono (fun _ stop hstop => ?_) fun _ h => h)
    trivial ((Nat.sub_le ..).trans_lt hfuel)
  exact hstop.imp (fun h => h.1) fun h => ⟨trivial, by omega⟩

namespace Program

variable {program : Program} {step : Step} {param : Option String} {input : List Char}
variable {start : Nat}

/-- Any regular expression is steady; whether it matches the empty text does not matter. -/
theorem regex_steady (expression : Regex) (description : String) (input : List Char) (start : Nat) :
    Steady input start
      (Run.primitive ((Primitive.regex expression description input start).map Value.str)) := by
  refine .primitive (fun value stop hsuccess => ?_) fun _ _ => trivial
  obtain ⟨text, hregex, -⟩ := Outcome.map_eq_success hsuccess
  obtain ⟨here, length, hhere, hlength, rfl, -⟩ := Primitive.regex_eq_success hregex
  obtain ⟨passed, rest, rfl, rfl⟩ := Regex.matchLength?_eq_some hlength
  exact .ofCut _ hhere fun _ => rfl

/-- The successes of a steady matcher go forward. -/
theorem matcher_steady (hprogram : program.isSteady = true) (fuel : Nat) (scope : Scope)
    {m : Matcher} (hm : m.isSteady = true) (input : List Char) (start : Nat) :
    Steady input start (program.matcher fuel scope m input start) := by
  induction fuel generalizing scope m start with
  | zero => trivial
  | succ fuel ih =>
    have hrule : ∀ id param,
        Steady input start (program.matchRule (program.matcher fuel) id param input start) :=
      fun id param => matchRule_steady fun rule hrule alternative halternative item hitem _ start =>
        ih _ (isSteady_of_mem hprogram hrule halternative hitem) start
    cases m with
    | literal string | param | «variable» index => exact literal_ensures fun _ => rfl
    | regex expression description => exact regex_steady ..
    | any =>
      refine .primitive (fun value stop hsuccess => ?_) fun _ _ => trivial
      obtain ⟨text, hany, -⟩ := Outcome.map_eq_success hsuccess
      exact (Primitive.anyChar_progress hany).mono nofun
    | rule id => exact hrule id none
    | template id argument => exact hrule id (some argument)
    | negative inner =>
      -- it goes on by one character, wherever the inner match has stopped
      refine .mapValue Value.str ((Run.Ensures.any _).resume (fun _ _ _ => trivial) fun _ _ => ?_)
      split
      · rename_i c rest hrest
        exact Progress.ofCut [c] hrest fun _ => rfl
      · trivial
    | look inner =>
      exact (Run.Ensures.any _).resume (fun _ _ _ => .stay input start) fun _ _ => trivial
    | attempt inner =>
      exact Combinator.attempt_ensures (ih scope (m := inner) hm start) fun _ h => h
    | backtrack inner | external name transformer inner => cases hm
    | group items important =>
      exact .mapValue (groupValue important) (matchItems_steady (fun item hitem captures start =>
        ih _ (areSteady_iff.1 hm item hitem) start) start)
    | repeated inner repetition =>
      have hinner := fun start => ih scope (m := inner) hm start
      cases repetition with
      | optional =>
        exact .mapValue Value.ofOption (Combinator.optional_ensures
          (P := fun _ stop => Progress input start true stop) (hinner start) (.stay input start))
      | any => exact .mapValue Value.list (Combinator.many_steady hinner fuel start)
      | oneOrMore =>
        refine .mapValue Value.list ((hinner start).andThen fun first stop hstop => ?_)
        exact .mapValue (first :: ·) ((Combinator.many_steady hinner fuel stop).mono
          (fun _ _ hlast => hstop.trans hlast) fun _ h => h)

/-! ### Layers -/

/-- Whether a matcher may be part of a rule in a program without recursion. -/
def mayCall (program : Program) (id : Nat) : Matcher → Bool
  | .rule callee | .template callee _ => decide (id < callee ∧ callee < program.rules.length)
  | .backtrack inner | .repeated inner _ => inner.isSteady
  | .external _ _ _ => false
  | _ => true

/-- Whether the rules of a program only call later ones. -/
def isLayered (program : Program) : Bool :=
  program.isSteady &&
    program.rules.zipIdx.all fun (rule, id) => rule.parts.all (program.mayCall id)

theorem isLayered_of_mem (h : program.isLayered = true) {id : Nat} {rule : CompiledRule}
    (hrule : program.rules[id]? = some rule) :
    ∀ part ∈ rule.parts, program.mayCall id part = true := by
  rw [isLayered, Bool.and_eq_true, List.all_eq_true] at h
  exact List.all_eq_true.1 (h.2 (rule, id) (List.mem_zipIdx_iff_getElem?.2 hrule))

theorem isSteady_of_isLayered (h : program.isLayered = true) : program.isSteady = true :=
  (Bool.and_eq_true_iff.1 h).1

/-- The matchers of a rule, and its own number. -/
structure PartOf (program : Program) (id : Nat) (m : Matcher) : Prop where
  contains : program.Contains m
  may : m.Every fun part => program.mayCall id part = true

namespace PartOf

variable {id : Nat} {m inner : Matcher}

theorem ofItem (h : program.isLayered = true) {rule : CompiledRule}
    (hrule : program.rules[id]? = some rule) {alternative : CompiledAlternative}
    (halternative : alternative ∈ rule.alternatives) {item : Matcher}
    (hitem : item ∈ alternative.items) : program.PartOf id item :=
  ⟨.ofItem hrule halternative hitem, fun part hpart =>
    isLayered_of_mem h hrule part (mem_parts_of_item halternative hitem hpart)⟩

theorem ofBody (h : program.PartOf id m) (hparts : m.parts = m :: inner.parts) :
    program.PartOf id inner := by
  refine ⟨h.contains.ofBody hparts, fun part hpart => h.may part ?_⟩
  rw [hparts]
  exact List.mem_cons_of_mem _ hpart

theorem ofMember {items : List Matcher} {important : List Nat}
    (h : program.PartOf id (.group items important)) {item : Matcher} (hitem : item ∈ items) :
    program.PartOf id item :=
  ⟨h.contains.ofMember hitem, h.may.group item hitem⟩

end PartOf

/-! ### Fuel -/

/-- What is left to do for a matcher of a rule, on texts up to a size. -/
def layeredWork (program : Program) (total id depth : Nat) : Nat :=
  program.work total (program.rules.length - id) depth

theorem layeredWork_lt_of_call {total id callee : Nat} (hlt : id < callee)
    (hcallee : callee < program.rules.length) (depth : Nat) :
    program.layeredWork total callee program.size < program.layeredWork total id depth :=
  work_lt_of_bound (by omega) (Nat.le_refl _)

/-- The body of a function or a repetition is smaller. -/
theorem layeredWork_lt_of_body {total id fuel : Nat} {m inner : Matcher}
    (hparts : m.parts = m :: inner.parts)
    (hfuel : program.layeredWork total id m.parts.length < fuel + 1) :
    program.layeredWork total id inner.parts.length < fuel := by
  rw [hparts, List.length_cons] at hfuel
  exact Nat.lt_of_succ_lt_succ hfuel

/-- So are the members of a group. -/
theorem layeredWork_lt_of_member {total id fuel : Nat} {items : List Matcher} {important : List Nat}
    (hfuel : program.layeredWork total id (Matcher.group items important).parts.length < fuel + 1)
    {item : Matcher} (hitem : item ∈ items) :
    program.layeredWork total id item.parts.length < fuel := by
  refine (Nat.add_le_add_left ?_ _).trans_lt (Nat.lt_of_succ_lt_succ hfuel)
  exact (parts_sublist_partsOfAll hitem).length_le

theorem layeredWork_lt_fuel (program : Program) (input : List Char) (id : Nat) :
    program.layeredWork (Text.size input) id program.size < program.fuel input := by
  have hwork := program.work_lt_fuel input 0
  refine lt_of_le_of_lt ?_ hwork
  rw [Nat.sub_zero]
  unfold layeredWork work
  gcongr
  exact Nat.sub_le ..

theorem total_lt_of_layeredWork {total id depth fuel : Nat}
    (hfuel : program.layeredWork total id depth < fuel) : total < fuel :=
  (Nat.le_of_add_right_le (program.le_work total _ depth)).trans_lt hfuel

/-! ### Runs end -/

/-- The matchers of a rule end when there is more fuel than work. -/
def LayersEndWithin (program : Program) (total fuel : Nat) : Prop :=
  ∀ {id : Nat} {m : Matcher}, program.PartOf id m → ∀ scope input start, Text.size input ≤ total →
    program.layeredWork total id m.parts.length < fuel →
    (program.matcher fuel scope m input start).Ends

theorem layeredItems_ends {total fuel id : Nat} {items : List Matcher}
    (hmatcher : program.LayersEndWithin total fuel)
    (hitems : ∀ item ∈ items, program.PartOf id item ∧
      program.layeredWork total id item.parts.length < fuel)
    (hsize : Text.size input ≤ total) :
    (matchItems (program.matcher fuel) items param input start).Ends := by
  refine Combinator.sequence_ends (fun matching hmatching previous start => ?_) [] start
  obtain ⟨item, hitem, rfl⟩ := List.mem_map.1 hmatching
  obtain ⟨hpart, hfuel⟩ := hitems item hitem
  exact (hmatcher hpart _ input start hsize hfuel).andThen (.any _) fun _ _ _ => .success _ _ _

theorem layeredRule_ends {total fuel id : Nat} (h : program.isLayered = true)
    (hmatcher : program.LayersEndWithin total fuel) (hid : id < program.rules.length)
    (hsize : Text.size input ≤ total) (hfuel : program.layeredWork total id program.size < fuel) :
    (program.matchRule (program.matcher fuel) id param input start).Ends := by
  have hrule := List.getElem?_eq_getElem hid
  refine matchRule_ends_of hrule fun alternative halternative => ?_
  have hpart := fun item (hitem : item ∈ alternative.items) =>
    PartOf.ofItem h hrule halternative hitem
  exact layeredItems_ends hmatcher (fun item hitem => ⟨hpart item hitem,
    (Nat.add_le_add_left (hpart item hitem).contains.length_le_size _).trans_lt hfuel⟩) hsize

theorem layersEndWithin (h : program.isLayered = true) (total fuel : Nat) :
    program.LayersEndWithin total fuel := by
  induction fuel with
  | zero => exact fun _ _ _ _ _ hfuel => absurd hfuel (Nat.not_lt_zero _)
  | succ fuel ih =>
    intro id m hm scope input start hsize hfuel
    have hsteady := isSteady_of_isLayered h
    have hmay := hm.may.self
    have hinner : ∀ {inner : Matcher}, m.parts = m :: inner.parts → ∀ input,
        Text.size input ≤ total → ∀ start, (program.matcher fuel scope inner input start).Ends :=
      fun hparts input hsize start =>
        ih (hm.ofBody hparts) scope input start hsize (layeredWork_lt_of_body hparts hfuel)
    have hcall : ∀ {callee : Nat} {param : Option String},
        id < callee ∧ callee < program.rules.length →
        (program.matchRule (program.matcher fuel) callee param input start).Ends :=
      fun hcallee => layeredRule_ends h ih hcallee.2 hsize
        ((layeredWork_lt_of_call hcallee.1 hcallee.2 _).trans_le (Nat.le_of_lt_succ hfuel))
    cases m with
    | literal string | param | «variable» index => exact literal_ends ..
    | regex expression description => exact regex_ends ..
    | any => exact anyChar_ends ..
    | rule callee => exact hcall (of_decide_eq_true hmay)
    | template callee argument => exact hcall (of_decide_eq_true hmay)
    | negative inner => exact (Combinator.negative_ends (hinner rfl input hsize start)).mapValue _
    | look inner => exact Combinator.look_ends (hinner rfl input hsize start)
    | attempt inner => exact Combinator.attempt_ends (hinner rfl input hsize start)
    | backtrack inner =>
      refine Combinator.backtrack_ends fun passed hpassed => ?_
      -- what is read backward is no longer than the text, and a steady body stays in it
      obtain ⟨rest, rfl, rfl⟩ := takeBytes?_eq_some_iff.1 hpassed
      rw [size_append] at hsize
      refine ⟨hinner rfl _ (by rw [size_reverse]; omega) 0, ?_⟩
      refine (matcher_steady hsteady fuel scope hmay _ 0).mono (fun _ length hlength => ?_)
        fun _ h => h
      rcases hlength with ⟨rfl, -⟩ | ⟨-, hle⟩
      · exact Nat.zero_le _
      · rwa [size_reverse] at hle
    | external name transformer inner => cases hmay
    | group items important =>
      exact (layeredItems_ends ih (fun item hitem =>
        ⟨hm.ofMember hitem, layeredWork_lt_of_member hfuel hitem⟩) hsize).mapValue _
    | repeated inner repetition =>
      have hbody := hinner rfl input hsize
      have hmany := Combinator.many_ends_of_steady hbody
        (matcher_steady hsteady fuel scope hmay input)
        (hsize.trans_lt (total_lt_of_layeredWork (layeredWork_lt_of_body rfl hfuel)))
      cases repetition with
      | optional => exact (Combinator.optional_ends (hbody start)).mapValue _
      | any => exact (hmany start).mapValue _
      | oneOrMore =>
        exact ((hbody start).andThen (.any _) fun _ stop _ => (hmany stop).mapValue _).mapValue _

/-- A rule of a program without recursion ends, whatever its parameter. -/
theorem call_ends (h : program.isLayered = true) {id : Nat} (hid : id < program.rules.length)
    (param : Option String) (input : List Char) (start : Nat) {fuel : Nat}
    (hfuel : program.fuel input ≤ fuel) : (program.call fuel id param input start).Ends :=
  layeredRule_ends h (layersEndWithin h (Text.size input) fuel) hid (Nat.le_refl _)
    ((program.layeredWork_lt_fuel input id).trans_le hfuel)

end Program

end Peg
