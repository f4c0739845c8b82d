/-
Peg/Proofs/Program/Lossless.lean

Values that spell what was read.

Without mappers a value is a tree whose leaves are the pieces of the text, in
order.  Nothing is lost on the way as long as nothing is left out of it: no
blanks are skipped, no member of a group is dropped, and no matcher reads what
it does not pass on (lookahead, backward matching, functions of the host).
Then the text of a value is the slice of the input between the offsets where
its match started and stopped.

A repetition drops the value of its last attempt when that attempt did not
advance.  What it drops spells the empty slice.

The captures of a sequence are laid out side by side (`Spelled`), so a
back-reference stands for the very slice that the earlier item has read.
-/
import Peg.Proofs.Program.Bounds
import Peg.Proofs.Run.Outcome
import Peg.Proofs.Value.Sum

namespace Peg

open Text

/-! ### Values and texts -/

namespace Value

/-- Putting values side by side puts their texts one after the other. -/
theorem text_ofItems (values : List Value) : (ofItems values).text = textOfAll values := by
  rcases values with - | ⟨value, - | ⟨next, values⟩⟩
  · rfl
  · simp [ofItems, textOfAll]
  · rfl

end Value

variable {input : List Char} {start stop : Nat}

/-- A run whose value has the text between where it started and where it stopped. -/
abbrev Run.Spells (input : List Char) (start : Nat) (run : Run Value) : Prop :=
  run.Ensures (fun value stop => slice? input start stop = some value.text.toList) fun _ => True

/-- What is read is given. -/
theorem Run.Spells.text {outcome : Outcome String} (h : Primitive.IsReading input start outcome) :
    (Run.primitive (outcome.map Value.str)).Spells input start := by
  refine .primitive (fun value stop hsuccess => ?_) fun _ _ => trivial
  obtain ⟨text, rfl, rfl⟩ := Outcome.map_eq_success hsuccess
  obtain ⟨passed, rest, hread, rfl, rfl⟩ := h
  rw [Value.text, String.toList_ofList]
  exact slice?_of_dropBytes? hread

/-- Captures that follow one another from one offset to another, each with the text in between. -/
inductive Spelled (input : List Char) (start : Nat) : List Capture → Nat → Prop
  | nil (h : IsOffset input start) : Spelled input start [] start
  | snoc {captures : List Capture} {value : Value} {middle stop : Nat}
      (h : Spelled input start captures middle)
      (hvalue : slice? input middle stop = some value.text.toList) :
      Spelled input start (captures ++ [⟨value, ⟨middle, stop⟩⟩]) stop

namespace Spelled

variable {captures : List Capture}

theorem isOffset (h : Spelled input start captures stop) : IsOffset input stop := by
  cases h with
  | nil h => exact h
  | snoc h hvalue => exact isOffset_of_slice? hvalue

/-- Together they have the text of the whole. -/
theorem slice (h : Spelled input start captures stop) :
    slice? input start stop = some (Value.textOfAll (captures.map (·.value))).toList := by
  induction h with
  | nil h => exact slice?_self h
  | snoc h hvalue ih =>
    have hall := slice?_trans ih hvalue
    rw [List.map_append, Value.textOfAll_append, String.toList_append]
    simpa [Value.textOfAll] using hall

theorem slice_of_mem (h : Spelled input start captures stop) :
    ∀ capture ∈ captures,
      slice? input capture.span.start capture.span.stop = some capture.value.text.toList := by
  induction h with
  | nil h => exact nofun
  | snoc h hvalue ih =>
    intro capture hcapture
    rcases List.mem_append.1 hcapture with hcapture | hcapture
    · exact ih capture hcapture
    · rw [List.mem_singleton.1 hcapture]
      exact hvalue

end Spelled

/-! ### Matchers and programs -/

/-- Matchers that give all they read. -/
def Matcher.keepsAll : Matcher → Bool
  | .look _ | .backtrack _ | .external _ _ _ => false
  | .group _ important => important.isEmpty
  | _ => true

/-- Programs that leave nothing out of their values. -/
structure Program.KeepsAll (program : Program) : Prop where
  matchers : program.Every fun part => part.keepsAll = true
  mapperless : ∀ rule ∈ program.rules, ∀ alternative ∈ rule.alternatives, alternative.mapper = none
  blankless : ∀ rule ∈ program.rules, rule.skipsBlank = false

namespace Combinator

/-- A repetition, whatever its last attempt has given. -/
theorem many_spells {body : Matching Value}
    (h : ∀ start, IsOffset input start → (body input start).Spells input start)
    (hstart : IsOffset input start) (fuel : Nat) :
    (many fuel body input start).Ensures
      (fun values stop => slice? input start stop = some (Value.textOfAll values).toList)
      fun _ => True := by
  refine many_ensures (I := IsOffset input)
    (P := fun start values stop => slice? input start stop = some (Value.textOfAll values).toList)
    (fun _ hstart => slice?_self hstart) (fun start hstart => ?_) hstart
  refine (h start hstart).mono (fun value stop hvalue => ?_) fun _ h => h
  refine ⟨isOffset_of_slice? hvalue, fun values last hvalues => ?_⟩
  -- an attempt that is kept is followed by what the later ones have read
  rw [Value.textOfAll, String.toList_append]
  exact slice?_trans hvalue hvalues

end Combinator

namespace Program

variable {program : Program} {step : Step} {param : Option String}

theorem matchItems_spells {items : List Matcher}
    (h : ∀ item ∈ items, ∀ captures start, IsOffset input start →
      (step ⟨param, captures⟩ item input start).Spells input start)
    (hstart : IsOffset input start) :
    (matchItems step items param input start).Ensures (Spelled input start) fun _ => True := by
  refine matchItems_keeps (fun item hitem captures middle hcaptures => ?_) (.nil hstart)
  exact (h item hitem captures middle hcaptures.isOffset).mono
    (fun value stop hvalue => .snoc hcaptures hvalue) fun _ h => h

theorem rule_spells (hprogram : program.KeepsAll)
    (h : ∀ m : Matcher, (m.Every fun part => part.keepsAll = true) → ∀ captures start,
      IsOffset input start → (step ⟨param, captures⟩ m input start).Spells input start)
    (id : Nat) (hstart : IsOffset input start) :
    (program.matchRule step id param input start).Spells input start := by
  refine matchRule_ensures (fun rule hrule alternative halternative => ?_) ?_
  · have hitems := matchItems_spells
      (fun item hitem => h item (hprogram.matchers.ofItem hrule halternative hitem)) hstart
    refine hitems.andThen fun captures stop hcaptures => ?_
    rw [hprogram.mapperless rule (List.mem_of_getElem? hrule) alternative halternative]
    show slice? input start stop = some (Value.ofItems (captures.map (·.value))).text.toList
    rw [Value.text_ofItems]
    exact hcaptures.slice
  · intro rule hrule hskips
    rw [hprogram.blankless rule (List.mem_of_getElem? hrule)] at hskips
    cases hskips

/-- Every matcher spells what it reads. -/
theorem matcher_spells (hprogram : program.KeepsAll) (fuel : Nat) (param : Option String) {m : Matcher}
    (hm : m.Every fun part => part.keepsAll = true) (captures : List Capture)
    (hstart : IsOffset input start) :
    (program.matcher fuel ⟨param, captures⟩ m input start).Spells input start := by
  induction fuel generalizing m param captures start with
  | zero => trivial
  | succ fuel ih =>
    have hrule : ∀ id param, (program.call fuel id param input start).Spells input start :=
      fun id param => rule_spells hprogram
        (fun m hm captures start hstart => ih param hm captures hstart) id hstart
    cases m with
    | literal string => exact .text (Primitive.literal_isReading string)
    | regex expression description => exact .text (Primitive.regex_isReading expression description)
    | any => exact .text Primitive.anyChar_isReading
    | rule id => exact hrule id none
    | param => exact .text (Primitive.literal_isReading _)
    | «variable» index => exact .text (Primitive.literal_isReading _)
    | template id argument => exact hrule id (some argument)
    | negative inner =>
      refine .mapValue Value.str ((Run.Ensures.any _).resume (fun _ _ _ => trivial) fun _ _ => ?_)
      split
      · rename_i c rest hrest
        have hslice : slice? input start (start + c.utf8Size) = some [c] :=
          slice?_eq_some_iff.2 ⟨rest, hrest, rfl⟩
        show slice? input start (start + c.utf8Size) = some c.toString.toList
        simpa [Char.toString] using hslice
      · trivial
    | look inner => cases hm.self
    | attempt inner =>
      -- it only says where failures are
      exact Combinator.attempt_ensures (ih param hm.attempt captures hstart) fun _ _ => trivial
    | backtrack inner => cases hm.self
    | external name transformer inner => cases hm.self
    | group items important =>
      obtain rfl : important = [] := List.isEmpty_iff.1 hm.self
      have hitems := matchItems_spells
        (fun item hitem captures start => ih param (hm.group item hitem) captures) hstart
      refine .mapValue (groupValue []) (hitems.mono (fun captures stop hcaptures => ?_) fun _ h => h)
      show slice? input start stop = some (Value.ofItems (captures.map (·.value))).text.toList
      rw [Value.text_ofItems]
      exact hcaptures.slice
    | repeated inner repetition =>
      have hinner := fun start (hstart : IsOffset input start) =>
        ih param hm.repeated captures hstart
      cases repetition with
      | optional =>
        exact .mapValue Value.ofOption (Combinator.optional_ensures
          (P := fun value stop => slice? input start stop = some (Value.ofOption value).text.toList)
          (hinner start hstart) (slice?_self hstart))
      | any => exact .mapValue Value.list (Combinator.many_spells hinner hstart fuel)
      | oneOrMore =>
        refine .mapValue Value.list ((hinner start hstart).andThen fun first middle hfirst => ?_)
        have hmany := Combinator.many_spells hinner (isOffset_of_slice? hfirst) fuel
        refine .mapValue (first :: ·) (hmany.mono (fun values stop hvalues => ?_) fun _ h => h)
        show slice? input start stop = some (Value.textOfAll (first :: values)).toList
        rw [Value.textOfAll, String.toList_append]
        exact slice?_trans hfirst hvalues

/-! ### Back-references -/

end Program

/-- A constant text is read where the input has it. -/
theorem Primitive.literal_eq_success_iff {string text : String} :
    literal string input start = .success text stop ↔
      text = string ∧ slice? input start stop = some string.toList := by
  unfold literal
  constructor
  · intro h
    split at h
    · rename_i rest hrest
      obtain ⟨here, hhere, hafter⟩ := Option.bind_eq_some_iff.1 hrest
      rw [after?_eq_some_iff.1 hafter] at hhere
      obtain ⟨rfl, rfl⟩ := Outcome.success.inj h
      exact ⟨rfl, slice?_of_dropBytes? hhere⟩
    · cases h
  · rintro ⟨rfl, hslice⟩
    obtain ⟨rest, hrest, rfl⟩ := slice?_eq_some_iff.1 hslice
    have hafter : after? text.toList (text.toList ++ rest) = some rest := after?_eq_some_iff.2 rfl
    rw [hrest, Option.bind_some, hafter]

namespace Program

variable {program : Program} {param : Option String} {captures : List Capture}

/-- A reference to an item reads what the input has between the offsets of the item. -/
theorem variable_reads (hcaptures : Spelled input start captures stop) {index : Nat}
    {capture : Capture} (hcapture : captures[index]? = some capture) (fuel place : Nat)
    (value : Value) (last : Nat) :
    (program.matcher (fuel + 1) ⟨param, captures⟩ (.variable index) input place).outcome? =
        some (.success value last) ↔
      slice? input place last = slice? input capture.span.start capture.span.stop ∧
        value = .str capture.value.text := by
  have htext : Scope.textOf ⟨param, captures⟩ index = capture.value.text := by
    simp [Scope.textOf, hcapture]
  rw [matcher, htext, Run.outcome?_primitive,
    hcaptures.slice_of_mem capture (List.mem_of_getElem? hcapture), Option.some.injEq]
  constructor
  · intro h
    obtain ⟨text, hread, rfl⟩ := Outcome.map_eq_success h
    obtain ⟨rfl, hslice⟩ := Primitive.literal_eq_success_iff.1 hread
    exact ⟨hslice, rfl⟩
  · rintro ⟨hslice, rfl⟩
    rw [Primitive.literal_eq_success_iff.2 ⟨rfl, hslice⟩]
    rfl

/-- Default values are lossless.  The text of the value of a rule is the slice of the input that
was read.  In a sequence a reference to an item matches what the input has in common with the slice
of that item, and nothing else. -/
theorem values_lossless (hprogram : program.KeepsAll) (fuel : Nat) (param : Option String)
    (hstart : IsOffset input start) :
    (∀ id, (program.call fuel id param input start).Ensures
      (fun value stop => slice? input start stop = some value.text.toList) fun _ => True) ∧
    ∀ items : List Matcher, (∀ item ∈ items, program.Contains item) →
      (matchItems (program.matcher fuel) items param input start).Ensures
        (fun captures _ => ∀ index capture, captures[index]? = some capture →
          slice? input capture.span.start capture.span.stop = some capture.value.text.toList ∧
          ∀ fuel place value last,
            (program.matcher (fuel + 1) ⟨param, captures⟩ (.variable index) input
                place).outcome? = some (.success value last) ↔
              slice? input place last = slice? input capture.span.start capture.span.stop ∧
                value = .str capture.value.text)
        fun _ => True := by
  have hspells := fun (m : Matcher) (hm : m.Every fun part => part.keepsAll = true) captures start
    (hstart : IsOffset input start) =>
      matcher_spells hprogram fuel param hm captures hstart
  refine ⟨fun id => rule_spells hprogram hspells id hstart, fun items hitems => ?_⟩
  -- each capture of the sequence has the text that was read for it
  have hcaptures := matchItems_spells
    (fun item hitem => hspells item ((hitems item hitem).every hprogram.matchers)) hstart
  refine hcaptures.mono (fun captures stop hcaptures index capture hcapture => ?_) fun _ h => h
  exact ⟨hcaptures.slice_of_mem capture (List.mem_of_getElem? hcapture),
    variable_reads hcaptures hcapture⟩

end Program

/-! ### A word that is repeated after a comma -/

namespace Repeated

/-- Any number of characters before a comma. -/
def word : Matcher :=
  .repeated (.negative (.literal ",")) .any

/-- The word after the comma is a reference to the one before it. -/
def program : Program :=
  ⟨[⟨.simple "twice", false, [⟨[word, .literal ",", .variable 0], none⟩], {}⟩]⟩

theorem keepsAll : program.KeepsAll where
  matchers := by decide
  mapperless := by decide
  blankless := by decide

/-- The value of a repeated word, and a reference to the word that has been read. -/
theorem word_lossless :
    program.KeepsAll ∧ IsOffset "éa,éa".toList 0 ∧
    (program.call 7 0 none "éa,éa".toList 0).outcome? =
      some (.success (.tuple [.list [.str "é", .str "a"], .str ",", .str "éa"]) 7) ∧
    slice? "éa,éa".toList 0 7 =
      some (Value.tuple [.list [.str "é", .str "a"], .str ",", .str "éa"]).text.toList ∧
    program.Contains word ∧
    (Program.matchItems (program.matcher 7) [word] none "éa,éa".toList 0).outcome? =
      some (.success [⟨.list [.str "é", .str "a"], ⟨0, 3⟩⟩] 3) ∧
    slice? "éa,éa".toList 4 7 = slice? "éa,éa".toList 0 3 ∧
    (program.matcher 1 ⟨none, [⟨.list [.str "é", .str "a"], ⟨0, 3⟩⟩]⟩ (.variable 0)
      "éa,éa".toList 4).outcome? = some (.success (.str "éa") 7) := by
  have hcontains : program.Contains word :=
    .ofItem (show program.rules[0]? = some _ from rfl) (List.mem_singleton_self _)
      (List.mem_cons_self ..)
  have hrun : (program.call 7 0 none "éa,éa".toList 0).outcome? =
      some (.success (.tuple [.list [.str "é", .str "a"], .str ",", .str "éa"]) 7) := rfl
  have hitems : (Program.matchItems (program.matcher 7) [word] none "éa,éa".toList 0).outcome? =
      some (.success [⟨.list [.str "é", .str "a"], ⟨0, 3⟩⟩] 3) := rfl
  have hslice : slice? "éa,éa".toList 4 7 = slice? "éa,éa".toList 0 3 := by decide
  obtain ⟨hvalue, hcaptures⟩ := Program.values_lossless keepsAll 7 none (isOffset_zero "éa,éa".toList)
  obtain ⟨events, hended⟩ := Run.outcome?_eq_some hrun
  obtain ⟨events', hended'⟩ := Run.outcome?_eq_some hitems
  have hreference :=
    (hcaptures [word] (List.forall_mem_singleton.2 hcontains)).success hended' 0 _ rfl
  exact ⟨keepsAll, isOffset_zero _, hrun, (hvalue 0).success hended, hcontains, hitems, hslice,
    (hreference.2 0 4 _ 7).2 ⟨hslice, rfl⟩⟩

end Repeated

end Peg
