/-
Peg/Proofs/Regex/Wrapped.lean

What the group around the source of a pattern does to it.

A pattern is read as `^(?flags:source)`.  Readers do not look past a
parenthesis, and open groups around do not matter to what is read inside, so
the source is read in the group exactly as it is read alone, up to the place
where a parenthesis closes the group:

    between ^(?flags: and )   passed         rest
    alone                     passed         rest

in both cases the reading goes from the same state to the same state over
`passed`, and `rest` is empty or begins with a parenthesis that nothing in the
source has opened (`exists_passes`).  An empty rest makes the pattern an anchor
before the expression of the source.  Otherwise the source is no expression,
and the pattern is if what stands after that parenthesis happens to go with the
last one.
-/
import Peg.Proofs.Regex.Construct

namespace Peg.Regex

open Text

variable {flags : Flags} {cs rest stop : List Char} {reading reached : Reading}
  {outer : List OpenGroup}

/-! ### Reading to the end -/

namespace Reading

/-- Read constructs to the end of the text. -/
def read? (reading : Reading) (cs : List Char) : Option Regex :=
  reading.finish? (cs.length + 1) cs

/-- A step takes at least the character that the construct begins with. -/
theorem suffix_of_step? {c : Char} {next : Reading}
    (h : reading.step? (c :: cs) = some (next, rest)) : rest <:+ cs := by
  rw [step?_eq] at h
  obtain ⟨⟨construct, rest⟩, hconstruct, h⟩ := Option.bind_eq_some_iff.1 h
  obtain ⟨_, -, heq⟩ := Option.map_eq_some_iff.1 h
  cases heq
  exact shrinks_readAfter? reading.flags c hconstruct

/-- One step of the reading, with the end of the text as the other case. -/
theorem finish?_succ (reading : Reading) (fuel : Nat) (cs : List Char) :
    finish? (fuel + 1) reading cs = match reading.flags.skip cs with
      | [] => if reading.outer.isEmpty then some reading.group.close else none
      | c :: cs => (reading.step? (c :: cs)).bind fun next => next.1.finish? fuel next.2 := by
  rw [finish?]
  rcases reading.flags.skip cs with - | ⟨c, cs⟩
  · rfl
  · dsimp only
    rcases reading.step? (c :: cs) with - | ⟨next, rest⟩
    · rfl
    · rfl

/-- Each step takes a character, so the number of characters bounds the steps. -/
theorem finish?_fuel {fuel fuel' : Nat} (h : cs.length < fuel) (h' : cs.length < fuel') :
    reading.finish? fuel cs = reading.finish? fuel' cs := by
  induction fuel generalizing fuel' reading cs with
  | zero => omega
  | succ fuel ih =>
    obtain ⟨fuel', rfl⟩ := Nat.exists_eq_add_of_le' (Nat.one_le_of_lt h')
    have hskip := (reading.flags.skip_suffix cs).length_le
    rw [finish?_succ, finish?_succ]
    rcases hcs : reading.flags.skip cs with - | ⟨c, cs'⟩
    · rfl
    · rcases hstep : reading.step? (c :: cs') with - | ⟨next, rest⟩
      · simp only [hstep, Option.bind_none]
      · have hrest := (suffix_of_step? hstep).length_le
        rw [hcs, List.length_cons] at hskip
        simp only [hstep, Option.bind_some]
        exact ih (by omega) (by omega)

/-- Where nothing significant is left the reading ends, if no group is open. -/
theorem read?_of_skip_nil (h : reading.flags.skip cs = []) :
    reading.read? cs = if reading.outer.isEmpty then some reading.group.close else none := by
  rw [read?, finish?_succ, h]

/-- Otherwise the next construct is read, and then the rest. -/
theorem read?_of_skip_cons {c : Char} {text : List Char} (h : reading.flags.skip cs = c :: text) :
    reading.read? cs = (reading.step? (c :: text)).bind fun next => next.1.read? next.2 := by
  have hskip := (reading.flags.skip_suffix cs).length_le
  rw [h, List.length_cons] at hskip
  rw [read?, finish?_succ, h]
  dsimp only
  rcases hstep : reading.step? (c :: text) with - | ⟨next, rest⟩
  · rfl
  · have hrest := (suffix_of_step? hstep).length_le
    exact finish?_fuel (show rest.length < cs.length by omega) (Nat.lt_succ_self _)

/-- What is insignificant does not matter. -/
theorem read?_congr (h : reading.flags.skip cs = reading.flags.skip rest) :
    reading.read? cs = reading.read? rest := by
  rcases hskip : reading.flags.skip rest with - | ⟨c, text⟩
  · rw [read?_of_skip_nil hskip, read?_of_skip_nil (h.trans hskip)]
  · rw [read?_of_skip_cons hskip, read?_of_skip_cons (h.trans hskip)]

theorem read?_nil (reading : Reading) :
    reading.read? [] = if reading.outer.isEmpty then some reading.group.close else none :=
  read?_of_skip_nil (reading.flags.skip_stop stop_nil)

/-- A parenthesis closes the innermost group and nothing else. -/
theorem read?_parenthesis (reading : Reading) (others : List Char) :
    reading.read? (')' :: others) = (reading.extend? .closing).bind (·.read? others) := by
  rw [read?_of_skip_cons (reading.flags.skip_stop (stop_cons others)), step?_eq]
  show ((reading.extend? .closing).map (·, others)).bind _ = _
  rcases reading.extend? .closing with - | next
  · rfl
  · rfl

/-! ### Groups around -/

/-- The same reading with more groups around it. -/
def under (outer : List OpenGroup) (reading : Reading) : Reading :=
  { reading with outer := reading.outer ++ outer }

@[simp] theorem under_nil (reading : Reading) : reading.under [] = reading := by
  rw [under, List.append_nil]

@[simp] theorem under_flags (outer : List OpenGroup) (reading : Reading) :
    (reading.under outer).flags = reading.flags := rfl

@[simp] theorem under_outer (outer : List OpenGroup) (reading : Reading) :
    (reading.under outer).outer = reading.outer ++ outer := rfl

/-- Groups around are left alone by all that does not close them. -/
theorem extend?_under {construct : Construct} (h : construct = .closing → reading.outer ≠ []) :
    (reading.under outer).extend? construct = (reading.extend? construct).map (under outer) := by
  obtain ⟨group, inner, flags, names⟩ := reading
  rcases construct with (⟨_, name⟩ | _) | - | - | regex | f
  · -- a group
    dsimp only [under, extend?]
    split
    · rfl
    · rfl
  · rfl
  · -- a parenthesis
    cases inner with
    | nil => exact absurd rfl (h rfl)
    | cons parent inner => rfl
  · rfl
  · rfl
  · -- a repetition
    dsimp only [under, extend?]
    rcases group.repeatLast? f with - | group
    · rfl
    · rfl

/-- So are steps; only a parenthesis may have to do with the groups around. -/
theorem step?_under {c : Char} (h : c = ')' → reading.outer ≠ []) :
    (reading.under outer).step? (c :: cs) =
      (reading.step? (c :: cs)).map fun next => (next.1.under outer, next.2) := by
  rw [step?_eq, step?_eq, under_flags, Option.map_bind]
  rcases hread : readConstruct? reading.flags (c :: cs) with - | ⟨construct, rest⟩
  · rfl
  · have hclosing : construct = .closing → reading.outer ≠ [] := by
      rintro rfl
      exact h (eq_of_readAfter?_closing hread)
    dsimp only [Option.bind_some, Function.comp]
    rw [extend?_under hclosing, Option.map_map, Option.map_map]
    rfl

/-- The text may not end while a group around is open. -/
theorem read?_under_nil (reading : Reading) {group : OpenGroup} {outer : List OpenGroup} :
    (reading.under (group :: outer)).read? [] = none := by
  rw [read?_nil, under_outer, if_neg (by simp)]

/-! ### Passing text -/

/-- Over a text the one reading becomes the other, in whatever groups and before whatever stop. -/
def Passes (reading : Reading) (passed : List Char) (reached : Reading) : Prop :=
  ∀ outer ⦃stop⦄, Stop stop →
    (reading.under outer).read? (passed ++ stop) = (reached.under outer).read? stop

/-- What is skipped is passed without a change. -/
theorem passes_of_skip {passed : List Char}
    (h : ∀ ⦃stop⦄, Stop stop → reading.flags.skip (passed ++ stop) = stop) :
    reading.Passes passed reading := by
  intro outer stop hstop
  refine read?_congr ?_
  rw [under_flags, h hstop, reading.flags.skip_stop hstop]

/-- A step, and then what is passed from there on. -/
theorem Passes.of_step (text : List Char) {passed rest : List Char} {c : Char} {next : Reading}
    (hskip : ∀ ⦃stop⦄, Stop stop → reading.flags.skip (passed ++ stop) = c :: (text ++ stop))
    (hstep : ∀ ⦃stop⦄, Stop stop → reading.step? (c :: (text ++ stop)) = some (next, rest ++ stop))
    (hc : c = ')' → reading.outer ≠ []) (h : next.Passes rest reached) :
    reading.Passes passed reached := by
  intro outer stop hstop
  have hskip : (reading.under outer).flags.skip (passed ++ stop) = c :: (text ++ stop) :=
    hskip hstop
  rw [read?_of_skip_cons hskip, step?_under hc, hstep hstop]
  exact h outer hstop

/-- What is passed does not begin with a brace that holds nothing. -/
theorem Passes.braced {passed : List Char} (h : reading.Passes passed reached)
    (houter : reached.outer = []) : Braced reading.flags passed := by
  rintro inside rfl hinside
  have hread := h [] stop_nil
  have hskip : reading.flags.skip ('\x7b' :: inside) = '\x7b' :: inside :=
    Flags.skip_cons _ (by decide) (by decide) inside
  have hconstruct : readConstruct? reading.flags ('\x7b' :: inside) = none := by
    rw [readConstruct?, readAfter?, parseCount?_eq_none hinside]
    rfl
  rw [under_nil, under_nil, List.append_nil, read?_of_skip_cons hskip, step?_eq, hconstruct,
    read?_nil, houter] at hread
  cases hread

/-- A step does not see past a parenthesis, if what comes next can be passed. -/
theorem step?_before {c : Char} {others : List Char} {next : Reading}
    (h : reading.step? (c :: (cs ++ ')' :: others)) = some (next, rest ++ ')' :: others))
    (hbraced : Braced next.flags rest) (hstop : Stop stop) :
    reading.step? (c :: (cs ++ stop)) = some (next, rest ++ stop) := by
  rw [step?_eq] at h ⊢
  obtain ⟨⟨construct, text⟩, hconstruct, h⟩ := Option.bind_eq_some_iff.1 h
  obtain ⟨_, happly, heq⟩ := Option.map_eq_some_iff.1 h
  cases heq
  have hescape : c = '\\' → Braced reading.flags rest := by
    rintro rfl
    obtain ⟨regex, rfl⟩ := exists_of_readAfter?_escape hconstruct
    cases happly
    exact hbraced
  rw [readConstruct?, readAfter?_before hconstruct hescape hstop, Option.bind_some]
  dsimp only
  rw [happly]
  rfl

/-- A group that is closed at the end of the text leaves the groups around open. -/
theorem read?_last (houter : reading.outer ≠ []) {group : OpenGroup} :
    (reading.under (group :: outer)).read? [')'] = none := by
  rw [read?_parenthesis, extend?_under fun _ => houter]
  rcases reading.extend? .closing with - | next
  · rfl
  · exact read?_under_nil next

/-- Text in which nothing is read is passed, if the group around can be closed after it. -/
theorem passes_of_skip_nil {group : OpenGroup} {regex : Regex} (hskip : reading.flags.skip cs = [])
    (h : (reading.under [group]).read? (cs ++ [')']) = some regex) :
    reading.outer = [] ∧ reading.Passes cs reading := by
  rcases Flags.skip_append_of_eq_nil hskip with hall | hcomment
  · have hpasses : reading.Passes cs reading :=
      passes_of_skip fun stop hstop => by rw [hall, reading.flags.skip_stop hstop]
    rw [hpasses [group] (stop_cons [])] at h
    refine ⟨?_, hpasses⟩
    by_contra houter
    rw [read?_last houter] at h
    cases h
  · have hnil : (reading.under [group]).flags.skip (cs ++ [')']) = [] :=
      List.suffix_nil.1 (hcomment [])
    rw [read?_of_skip_nil hnil, under_outer, if_neg (by simp)] at h
    cases h

/-- A step before a parenthesis is a step before every stop, so it is passed with what is passed
after it. -/
theorem Passes.of_step_before {skipped taken passed others : List Char} {c : Char} {next : Reading}
    (hskip : reading.flags.skip (skipped ++ c :: (taken ++ passed) ++ ')' :: others) =
      c :: (taken ++ passed) ++ ')' :: others)
    (hstep : reading.step? (c :: (taken ++ passed ++ ')' :: others)) =
      some (next, passed ++ ')' :: others))
    (hc : c = ')' → reading.outer ≠ []) (houter : reached.outer = [])
    (h : next.Passes passed reached) :
    reading.Passes (skipped ++ c :: (taken ++ passed)) reached := by
  refine .of_step (taken ++ passed) (fun stop hstop => ?_) (fun stop hstop => ?_) hc h
  · exact Flags.skip_before hskip hstop
  · exact step?_before hstep (h.braced houter) hstop

end Reading

/-- A stop and a parenthesis are a parenthesis and something else. -/
theorem Stop.append (h : Stop rest) : ∃ others, rest ++ [')'] = ')' :: others := by
  rcases h with rfl | ⟨others, rfl⟩
  · exact ⟨[], rfl⟩
  · exact ⟨others ++ [')'], rfl⟩

/-- Inside a group the source is read as it is alone, up to a parenthesis or to its end. -/
theorem exists_passes {group : OpenGroup} {regex : Regex}
    (h : (reading.under [group]).read? (cs ++ [')']) = some regex) :
    ∃ passed rest reached, cs = passed ++ rest ∧ Stop rest ∧ reached.outer = [] ∧
      reading.Passes passed reached := by
  -- a construct may take several characters, so the induction is on the length of the text
  induction hlength : cs.length using Nat.strong_induction_on generalizing cs reading with
  | _ length ih =>
    rcases hskip : reading.flags.skip cs with - | ⟨c, text⟩
    · -- nothing more is read
      obtain ⟨houter, hpasses⟩ := Reading.passes_of_skip_nil hskip h
      exact ⟨cs, [], reading, (List.append_nil cs).symm, stop_nil, houter, hpasses⟩
    · obtain ⟨skipped, rfl⟩ := hskip ▸ reading.flags.skip_suffix cs
      by_cases hclosing : c = ')' ∧ reading.outer = []
      · -- the parenthesis that closes the group
        obtain ⟨rfl, houter⟩ := hclosing
        refine ⟨skipped, ')' :: text, reading, rfl, stop_cons text, houter,
          Reading.passes_of_skip fun stop hstop => ?_⟩
        have hparenthesis : reading.flags.skip (skipped ++ ')' :: text) = [] ++ ')' :: text := hskip
        exact Flags.skip_before hparenthesis hstop
      · -- anything but the parenthesis that closes the group is an ordinary step
        have hc : c = ')' → reading.outer ≠ [] := fun hc houter => hclosing ⟨hc, houter⟩
        have hskip' : (reading.under [group]).flags.skip (skipped ++ c :: text ++ [')']) =
            c :: (text ++ [')']) := by
          rw [Reading.under_flags, Flags.skip_append_of_eq_cons hskip]
        rw [Reading.read?_of_skip_cons hskip', Reading.step?_under hc] at h
        obtain ⟨_, hmap, hread⟩ := Option.bind_eq_some_iff.1 h
        obtain ⟨⟨next, after⟩, hstep, rfl⟩ := Option.map_eq_some_iff.1 hmap
        dsimp only at hread
        rcases List.suffix_concat_iff.1 (Reading.suffix_of_step? hstep) with
          rfl | ⟨later, rfl, taken, rfl⟩
        · rw [Reading.read?_under_nil] at hread
          cases hread
        · have hlonger : later.length < length := by
            rw [← hlength]
            simp
            omega
          obtain ⟨passed, rest, reached, rfl, hrest, houter, hpasses⟩ := ih _ hlonger hread rfl
          obtain ⟨others, hothers⟩ := hrest.append
          have hbefore : reading.flags.skip (skipped ++ c :: (taken ++ passed) ++ ')' :: others) =
              c :: (taken ++ passed) ++ ')' :: others := by
            simpa [hothers] using hskip'
          have hstep : reading.step? (c :: (taken ++ passed ++ ')' :: others)) =
              some (next, passed ++ ')' :: others) := by
            simpa [hothers] using hstep
          exact ⟨skipped ++ c :: (taken ++ passed), rest, reached, by simp, hrest, houter,
            .of_step_before hbefore hstep hc houter hpasses⟩

/-! ### Flags -/

/-- The flags that a text stands for in a dialect, as flags that a colon ends. -/
def Flags.ofText? (dialect : Dialect) (text : String) : Option Flags :=
  match parseFlags? { dialect } [] (text.toList ++ [':']) with
  | some (flags, _, ':', []) => some flags
  | _ => none

/-- Flags that end with the text are read alike before more text. -/
theorem readFlags?_append {seen letters : List Char} {c : Char} {read : Flags × List Char × Char}
    (h : readFlags? flags seen (letters ++ [c]) = some (read, [])) (more : List Char) :
    readFlags? flags seen (letters ++ c :: more) = some (read, more) := by
  induction letters generalizing flags seen with
  | nil =>
    rcases readFlags?_cons flags seen c with ⟨ended, hended⟩ | ⟨-, flags', seen', hnext⟩
    · rw [List.nil_append, hended] at h ⊢
      obtain ⟨_, rfl, heq⟩ := Option.map_eq_some_iff.1 h
      cases heq
      rfl
    · rw [List.nil_append, hnext] at h
      cases h
  | cons letter letters ih =>
    rcases readFlags?_cons flags seen letter with ⟨ended, hended⟩ | ⟨-, flags', seen', hnext⟩
    · rw [List.cons_append, hended] at h
      obtain ⟨_, -, heq⟩ := Option.map_eq_some_iff.1 h
      simp at heq
    · rw [List.cons_append, hnext] at h ⊢
      exact ih h

/-- The flags of a pattern are read the same in front of its source. -/
theorem flaggedGroup?_of_ofText? {dialect : Dialect} {text : String} {inner : Flags}
    (h : Flags.ofText? dialect text = some inner) (more : List Char) :
    flaggedGroup? { dialect } (text.toList ++ ':' :: more) = some (.group inner none, more) := by
  rw [Flags.ofText?] at h
  split at h
  · rename_i seen hflags
    cases h
    have hread : readFlags? { dialect } [] (text.toList ++ [':']) =
        some ((inner, seen, ':'), []) := by
      rw [readFlags?, hflags]
      rfl
    rw [flaggedGroup?, readFlags?_append hread more]
    rfl
  · cases h

/-- Flags are not taken for the name of a group. -/
theorem marked?_of_flaggedGroup? {opening : Opening}
    (h : flaggedGroup? flags cs = some (opening, rest)) :
    marked? flags cs = some (opening, rest) := by
  rw [marked?]
  rcases head_cases 'P' cs with ⟨cs, rfl⟩ | hp
  · cases h
  · rcases head_cases '<' cs with ⟨cs, rfl⟩ | hangle
    · cases h
    · rw [onHead_of_ne _ _ hp, onHead_of_ne _ _ hangle, h]

/-! ### Patterns -/

/-- The beginning of a text that is read under flags; a dialect without any is around it. -/
def Reading.start (dialect : Dialect) (flags : Flags) : Reading :=
  { group := { outerFlags := { dialect } }, flags }

/-- The regular expression that a source is by itself, under flags. -/
def parseUnder? (dialect : Dialect) (flags : Flags) (source : String) : Option Regex :=
  (Reading.start dialect flags).read? source.toList

/-- What a pattern begins with, where its group stands. -/
def anchor : OpenGroup :=
  { items := [.expression (.assertion .textStart)] }

/-- The text of a pattern is read up to its source: there is an anchor outside of the group, and
nothing inside of it yet. -/
theorem parse?_patternText {dialect : Dialect} {source text : String} {inner : Flags}
    (h : Flags.ofText? dialect text = some inner) :
    parse? dialect (patternText source text) =
      ((Reading.start dialect inner).under [anchor]).read? (source.toList ++ [')']) := by
  have htext : patternText source text =
      '^' :: '(' :: '?' :: (text.toList ++ ':' :: (source.toList ++ [')'])) := by
    simp [patternText]
  have hopening :
      parseOpening? { dialect } ('?' :: (text.toList ++ ':' :: (source.toList ++ [')']))) =
        some (.group inner none, source.toList ++ [')']) := by
    rw [parseOpening?_eq]
    exact marked?_of_flaggedGroup? (flaggedGroup?_of_ofText? h _)
  have hopen : ({ group := anchor, flags := { dialect } } : Reading).step?
      ('(' :: '?' :: (text.toList ++ ':' :: (source.toList ++ [')']))) =
        some ((Reading.start dialect inner).under [anchor], source.toList ++ [')']) := by
    rw [step?_eq, readConstruct?, readAfter?, hopening]
    rfl
  calc parse? dialect (patternText source text)
      = Reading.read? { flags := { dialect } }
          ('^' :: '(' :: '?' :: (text.toList ++ ':' :: (source.toList ++ [')']))) := by
        rw [parse?, htext]
        rfl
    _ = Reading.read? { group := anchor, flags := { dialect } }
          ('(' :: '?' :: (text.toList ++ ':' :: (source.toList ++ [')']))) := by
        rw [Reading.read?_of_skip_cons rfl]
        rfl
    _ = ((Reading.start dialect inner).under [anchor]).read? (source.toList ++ [')']) := by
        rw [Reading.read?_of_skip_cons rfl, hopen]
        rfl

/-- A parenthesis that nothing has opened cannot be read. -/
theorem Reading.read?_unopened (houter : reached.outer = []) (others : List Char) :
    (reached.under []).read? (')' :: others) = none := by
  rw [read?_parenthesis, under_nil, extend?, houter]
  rfl

/-- The group of a pattern is closed at its end. -/
theorem Reading.read?_anchored (houter : reached.outer = []) :
    (reached.under [anchor]).read? [')'] =
      some (.seq (.assertion .textStart) reached.group.close) := by
  obtain ⟨group, outer, flags, names⟩ := reached
  obtain rfl : outer = [] := houter
  rw [read?_parenthesis]
  exact read?_nil _

/-- Something before the end of a source makes a pattern, and a parenthesis comes after it. -/
def Closes (dialect : Dialect) (source text : String) : Prop :=
  ∃ before after, source = before ++ ")" ++ after ∧
    (parse? dialect (patternText before text)).isSome

variable {dialect : Dialect} {source text : String} {inner : Flags}

/-- A source that closes the group has a parenthesis too many by itself. -/
theorem parseUnder?_of_closes (hflags : Flags.ofText? dialect text = some inner)
    (h : Closes dialect source text) : parseUnder? dialect inner source = none := by
  obtain ⟨before, after, rfl, hpattern⟩ := h
  obtain ⟨pattern, hpattern⟩ := Option.isSome_iff_exists.1 hpattern
  rw [parse?_patternText hflags] at hpattern
  obtain ⟨passed, rest, reached, hbefore, hrest, houter, hpasses⟩ := exists_passes hpattern
  obtain ⟨others, hothers⟩ : ∃ others, rest ++ ')' :: after.toList = ')' :: others := by
    rcases hrest with rfl | ⟨others, rfl⟩
    · exact ⟨_, rfl⟩
    · exact ⟨_, rfl⟩
  have hsource : (before ++ ")" ++ after).toList = passed ++ ')' :: others := by
    simp [hbefore, ← hothers]
  have hread := hpasses [] (stop_cons others)
  rw [Reading.read?_unopened houter, Reading.under_nil] at hread
  rw [parseUnder?, hsource, hread]

/-- A pattern is an anchor before what its source is by itself, unless the source is nothing by
itself and closes the group of the pattern. -/
theorem pattern?_eq_some (hflags : Flags.ofText? dialect text = some inner) {pattern : Regex}
    (h : pattern? source text dialect = some pattern) :
    Closes dialect source text ∨ ∃ regex, parseUnder? dialect inner source = some regex ∧
      pattern = .seq (.assertion .textStart) regex := by
  obtain ⟨-, h⟩ := Option.ite_none_right_eq_some.1 h
  rw [parse?_patternText hflags] at h
  obtain ⟨passed, rest, reached, hsource, hrest, houter, hpasses⟩ := exists_passes h
  -- the group is closed by the parenthesis of the wrapper, or by one of the source
  rcases hrest with rfl | ⟨others, rfl⟩
  · right
    rw [List.append_nil] at hsource
    rw [hsource, hpasses [anchor] (stop_cons []), Reading.read?_anchored houter] at h
    have hread := hpasses [] stop_nil
    rw [Reading.under_nil, Reading.under_nil, List.append_nil, Reading.read?_nil, houter] at hread
    refine ⟨reached.group.close, ?_, (Option.some.inj h).symm⟩
    rw [parseUnder?, hsource, hread]
    rfl
  · left
    refine ⟨String.ofList passed, String.ofList others, ?_, ?_⟩
    · rw [← String.toList_inj, hsource]
      simp
    · rw [parse?_patternText hflags, String.toList_ofList, hpasses [anchor] (stop_cons []),
        Reading.read?_anchored houter]
      rfl

end Peg.Regex
