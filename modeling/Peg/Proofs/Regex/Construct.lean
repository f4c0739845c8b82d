/-
Peg/Proofs/Regex/Construct.lean

One step of the reader of regular expressions, in two parts.

A step reads a construct, which depends on the flags in force only, and then
extends by it what was read so far, which does not look at the text:

    step? reading text
      = readConstruct? flags text, and the reading extended by it

(`step?_eq`).  So that a step does not see past a parenthesis is a matter of
constructs alone, and what groups are open around is a matter of the extension.
-/
import Peg.Proofs.Regex.Brackets

namespace Peg.Regex

open Text

variable {flags : Flags} {cs rest others stop : List Char}

/-! ### Counts -/

/-- The characters of a number. -/
def isDigitIn (verbose : Bool) (c : Char) : Bool :=
  c.isDigit || (verbose && isBlank c)

/-- The number with some digits, if it is not too large. -/
def decimal? (digits : List Char) : Option Nat :=
  (numberOf? 10 (digits.filter (·.isDigit))).filter (· < UInt32.size)

/-- The digits of a number end before the parenthesis, and so do the blanks around them. -/
theorem steady_parseDecimal? (flags : Flags) : Steady (parseDecimal? flags) := by
  have hblanks : Steady fun cs => some ((), cs.dropWhile isBlank) :=
    (steady_takeWhile (by decide)).map fun _ => ()
  have hdigits : Steady fun cs => some (cs.takeWhile (isDigitIn flags.verbose),
      cs.dropWhile (isDigitIn flags.verbose)) := by
    refine steady_takeWhile ?_
    rcases flags.verbose with - | -
    · decide
    · decide
  exact hblanks.bind fun _ => hdigits.bind fun digits => hblanks.bind fun _ =>
    flags.steady_skip.bind fun _ => steady_pure (decimal? digits)

/-- Read the brace after the second number of a count. -/
def countEnd? (least most : Nat) : List Char → Option (Count × List Char) :=
  onHead '\x7d' (fun cs => (if least ≤ most then some ⟨least, some most⟩ else none).map (·, cs))
    fun _ => none

/-- Read the rest of a count after its comma. -/
def countMost? (flags : Flags) (least : Nat) : List Char → Option (Count × List Char) :=
  onHead '\x7d' (fun cs => some (⟨least, none⟩, cs)) fun cs =>
    (parseDecimal? flags cs).bind fun read => countEnd? least read.1 read.2

/-- Read the rest of a count after its first number. -/
def countAfter? (flags : Flags) (least : Nat) : List Char → Option (Count × List Char) :=
  onHead '\x7d' (fun cs => some (⟨least, some least⟩, cs))
    (onHead ',' (fun cs => countMost? flags least (flags.skip cs)) fun _ => none)

/-- A count is a least number and what comes after it. -/
theorem parseCount?_eq (flags : Flags) (cs : List Char) : parseCount? flags cs =
    (parseDecimal? flags (flags.skip cs)).bind fun read => countAfter? flags read.1 read.2 := by
  rw [parseCount?]
  rcases parseDecimal? flags (flags.skip cs) with - | ⟨least, rest⟩
  · rfl
  · rw [Option.bind_some]
    dsimp only [countAfter?]
    split
    · rename_i heq
      cases heq
      rw [onHead_cons_self]
    · rename_i heq
      cases heq
      rw [onHead_of_ne _ _ (by simp), onHead_cons_self, countMost?]
      split
      · rename_i heq
        rw [heq, onHead_cons_self]
      · rename_i hother
        rw [onHead_of_forall _ _ hother]
        rcases parseDecimal? flags (flags.skip _) with - | ⟨most, rest⟩
        · rfl
        · rw [Option.bind_some]
          dsimp only [countEnd?]
          split
          · rename_i heq
            cases heq
            rw [onHead_cons_self]
            split <;> rfl
          · rename_i hbrace
            rw [onHead_of_forall _ _ fun cs heq => hbrace most cs (heq ▸ rfl)]
    · rename_i hbrace hcomma
      rw [onHead_of_forall _ _ fun cs heq => hbrace least cs (heq ▸ rfl),
        onHead_of_forall _ _ fun cs heq => hcomma least cs (heq ▸ rfl)]

theorem steady_countEnd? (least most : Nat) : Steady (countEnd? least most) :=
  .onHead (by decide) (steady_pure _) steady_none

/-- A parenthesis in place of the second number is refused in any case. -/
theorem steady_countMost? (flags : Flags) (least : Nat) : Steady (countMost? flags least) :=
  .onHead (by decide) (steady_some _) ((steady_parseDecimal? flags).bind (steady_countEnd? least))

/-- Only a comma or a brace may follow the first number. -/
theorem steady_countAfter? (flags : Flags) (least : Nat) : Steady (countAfter? flags least) :=
  .onHead (by decide) (steady_some _)
    (.onHead (by decide) ((steady_countMost? flags least).skip flags) steady_none)

/-- Counts hold no parentheses, so one that is read ends before the next of them. -/
theorem steady_parseCount? (flags : Flags) : Steady (parseCount? flags) := by
  rw [funext (parseCount?_eq flags)]
  exact ((steady_parseDecimal? flags).skip flags).bind (steady_countAfter? flags)

/-! ### Repetitions and groups -/

/-- A question mark is all that the greed of a repetition depends on. -/
theorem parseLazy_eq (flags : Flags) (cs : List Char) : some (parseLazy flags cs) =
    onHead '?' (fun cs => some (flags.swapGreed, cs))
      (fun cs => some (!flags.swapGreed, cs)) cs := by
  rw [parseLazy.eq_def]
  split
  · rw [onHead_cons_self]
  · rename_i hother
    rw [onHead_of_forall _ _ hother]

/-- The greed of a repetition is known at the parenthesis, which is no question mark. -/
theorem steady_parseLazy (flags : Flags) : Steady fun cs => some (parseLazy flags cs) := by
  rw [funext (parseLazy_eq flags)]
  exact .onHead (by decide) (steady_some _) (steady_some _)

/-- The name of a group, if it may be one. -/
def groupName? : List Char → Option (List Char)
  | [] => none
  | first :: others =>
    if (isAlphabetic first || first == '_') && others.all fun c =>
        isAlphanumeric c || c == '_' || c == '.' || c == '[' || c == ']' then
      some (first :: others)
    else none

/-- The name of a group is what comes before the angle bracket, if it is a name. -/
theorem parseGroupName?_eq (cs : List Char) : parseGroupName? cs =
    (upTo? '>' cs).bind fun read => (groupName? read.1).map (·, read.2) := by
  rw [parseGroupName?]
  rcases hread : upTo? '>' cs with - | ⟨name, rest⟩
  · rw [drop_of_upTo?_eq_none hread]
    split
    · rename_i heq
      cases heq
    · rfl
  · obtain ⟨hname, hdrop⟩ := takeWhile_of_upTo? hread
    rw [hname, hdrop, Option.bind_some]
    cases name with
    | nil => rfl
    | cons first others =>
      dsimp only [groupName?]
      split <;> rfl

/-- The reader looks for an angle bracket, and a name that reaches past a parenthesis is none. -/
theorem steady_parseGroupName? : Steady parseGroupName? := by
  rw [funext parseGroupName?_eq]
  exact (steady_upTo? (by decide)).filterMap groupName?

/-- Read flags with the character that ends them. -/
def readFlags? (flags : Flags) (seen : List Char) (cs : List Char) :
    Option ((Flags × List Char × Char) × List Char) :=
  (parseFlags? flags seen cs).map fun (flags, seen, c, rest) => ((flags, seen, c), rest)

/-- A character ends the flags or is one of them. -/
theorem readFlags?_cons (flags : Flags) (seen : List Char) (c : Char) :
    (∃ read, ∀ cs, readFlags? flags seen (c :: cs) = Option.map (·, cs) read) ∨
      (c ≠ ')' ∧ ∃ flags' seen', ∀ cs,
        readFlags? flags seen (c :: cs) = readFlags? flags' seen' cs) := by
  simp only [readFlags?, parseFlags?]
  split
  · split
    · exact .inl ⟨none, fun _ => rfl⟩
    · exact .inl ⟨some (flags, seen, c), fun _ => rfl⟩
  · rename_i hc
    have hc : c ≠ ')' := by
      rintro rfl
      exact hc rfl
    split
    · exact .inl ⟨none, fun _ => rfl⟩
    · split
      · exact .inr ⟨hc, _, _, fun _ => rfl⟩
      · rcases flags.set? c (!seen.contains '-') with - | flags'
        · exact .inl ⟨none, fun _ => rfl⟩
        · exact .inr ⟨hc, flags', c :: seen, fun _ => rfl⟩

/-- Flags may be ended by a parenthesis, and this is the only one that they take. -/
theorem steady_readFlags? (flags : Flags) (seen : List Char) : Steady (readFlags? flags seen) := by
  have hshrinks : ∀ flags seen, Shrinks (readFlags? flags seen) := by
    intro flags seen cs
    induction cs generalizing flags seen with
    | nil => exact nofun
    | cons c cs ih =>
      intro value rest h
      rcases readFlags?_cons flags seen c with ⟨read, hread⟩ | ⟨-, flags', seen', hread⟩
      · rw [hread] at h
        exact ((steady_pure read).shrinks h).trans (List.suffix_cons c cs)
      · rw [hread] at h
        exact (ih flags' seen' h).trans (List.suffix_cons c cs)
  refine ⟨hshrinks flags seen, fun cs => ?_⟩
  induction cs generalizing flags seen with
  | nil =>
    refine steadyAt_nil ?_
    rcases readFlags?_cons flags seen ')' with ⟨read, hread⟩ | ⟨hc, -⟩
    · rw [funext hread]
      exact (steady_pure read).shrinks
    · exact absurd rfl hc
  | cons c cs ih =>
    show SteadyAt (fun cs => readFlags? flags seen (c :: cs)) cs
    rcases readFlags?_cons flags seen c with ⟨read, hread⟩ | ⟨-, flags', seen', hread⟩
    · rw [funext hread]
      exact (steady_pure read).steadyAt cs
    · rw [funext hread]
      exact ih flags' seen'

/-- What flags begin, given the character that ends them. -/
def flagged? : Flags × List Char × Char → Option Opening
  | (flags, seen, c) =>
    if c = ')' then if seen.isEmpty then none else some (.flags flags)
    else some (.group flags none)

/-- Read a group with a name, from the name on. -/
def namedGroup? (flags : Flags) (cs : List Char) : Option (Opening × List Char) :=
  (parseGroupName? cs).map fun read => (.group flags (some read.1), read.2)

/-- Read flags and what they begin. -/
def flaggedGroup? (flags : Flags) (cs : List Char) : Option (Opening × List Char) :=
  (readFlags? flags [] cs).bind fun read => (flagged? read.1).map (·, read.2)

/-- After the question mark there are flags, and then a colon or a parenthesis. -/
theorem flaggedGroup?_eq (flags : Flags) (cs : List Char) : flaggedGroup? flags cs =
    match parseFlags? flags [] cs with
    | some (inner, seen, ')', cs) =>
      if seen.isEmpty then none else some (.flags inner, cs)
    | some (inner, _, _, cs) => some (.group inner none, cs)
    | none => none := by
  rw [flaggedGroup?, readFlags?]
  split
  · rename_i heq
    rw [heq, Option.map_some, Option.bind_some]
    dsimp only [flagged?]
    rw [if_pos rfl]
    split <;> rfl
  · rename_i hother heq
    rw [heq, Option.map_some, Option.bind_some]
    dsimp only [flagged?]
    rw [if_neg hother]
    rfl
  · rename_i heq
    rw [heq]
    rfl

/-- Read what comes after the question mark of an opening parenthesis. -/
def marked? (flags : Flags) : List Char → Option (Opening × List Char) :=
  onHead 'P' (onHead '<' (namedGroup? flags) fun _ => none) <|
    onHead '<' (onHead '=' (fun _ => none) (onHead '!' (fun _ => none) (namedGroup? flags)))
      (flaggedGroup? flags)

/-- The question mark tells groups with flags or names from ordinary ones. -/
theorem parseOpening?_eq (flags : Flags) (cs : List Char) : parseOpening? flags cs =
    onHead '?' (marked? flags) (fun cs => some (.group flags none, cs)) (flags.skip cs) := by
  rw [parseOpening?]
  generalize flags.skip cs = text
  split
  · rfl
  · rfl
  · rfl
  · rename_i cs hequals hmark
    rw [onHead_cons_self, marked?, onHead_of_ne _ _ (by simp), onHead_cons_self,
      onHead_of_forall _ _ fun cs heq => hequals cs (heq ▸ rfl),
      onHead_of_forall _ _ fun cs heq => hmark cs (heq ▸ rfl)]
    rfl
  · rename_i cs hnamed _ _ hangle
    rw [onHead_cons_self]
    refine (flaggedGroup?_eq flags cs).symm.trans ?_
    rcases head_cases 'P' cs with ⟨cs, rfl⟩ | hp
    · rw [marked?, onHead_cons_self, onHead_of_forall _ _ fun cs heq => hnamed cs (heq ▸ rfl)]
      rfl
    · rw [marked?, onHead_of_ne _ _ hp, onHead_of_forall _ _ fun cs heq => hangle cs (heq ▸ rfl)]
  · rename_i hother
    rw [onHead_of_forall _ _ hother]

/-- What opens a group is read without a look at the inside of the group. -/
theorem steady_parseOpening? (flags : Flags) : Steady (parseOpening? flags) := by
  have hnamed : Steady (namedGroup? flags) :=
    steady_parseGroupName?.map fun name => Opening.group flags (some name)
  have hflagged : Steady (flaggedGroup? flags) := (steady_readFlags? flags []).filterMap flagged?
  have hmarked : Steady (marked? flags) := by
    refine .onHead (by decide) (.onHead (by decide) hnamed steady_none) ?_
    refine .onHead (by decide) ?_ hflagged
    exact .onHead (by decide) steady_none (.onHead (by decide) steady_none hnamed)
  rw [funext (parseOpening?_eq flags)]
  exact (Steady.onHead (by decide) hmarked (steady_some _)).skip flags

/-! ### Constructs -/

/-- What one step reads. -/
inductive Construct where
  | opening (opening : Opening)
  | closing
  | bar
  | expression (regex : Regex)
  | repetition (f : Regex → Option Regex)

/-- A repetition, as greedy as the text that follows says. -/
def readRepetition? (flags : Flags) (f : Bool → Regex → Option Regex) (cs : List Char) :
    Option (Construct × List Char) :=
  (some (parseLazy flags cs)).bind fun read => some (.repetition (f read.1), read.2)

/-- The construct of an expression, if it is one. -/
def expression? (regex : Option Regex) : Option Construct :=
  regex.map .expression

/-- Read the construct that a character begins. -/
def readAfter? (flags : Flags) (cs : List Char) : Char → Option (Construct × List Char)
  | '(' => (parseOpening? flags cs).map fun read => (.opening read.1, read.2)
  | ')' => some (.closing, cs)
  | '|' => some (.bar, cs)
  | '[' => (readClass? flags cs).map fun read => (.expression (.chars read.1), read.2)
  | '?' => readRepetition? flags (fun greedy body => some (optional greedy body)) cs
  | '*' => readRepetition? flags (fun greedy body => some (star greedy body)) cs
  | '+' => readRepetition? flags (fun greedy body => some (.plus greedy body)) cs
  | '\x7b' => (parseCount? flags cs).bind fun read =>
      readRepetition? flags (read.1.repeat? flags.dialect) (flags.skip read.2)
  | '\\' => (parseEscape? flags cs).bind fun read =>
      (expression? (read.1.toRegex? flags)).map (·, read.2)
  | '.' => (expression? (flags.dot?.map .chars)).map (·, cs)
  | '^' => some (.expression (.assertion flags.startAssertion), cs)
  | '$' => some (.expression (.assertion flags.endAssertion), cs)
  | c => (expression? ((Primitive.char c).toRegex? flags)).map (·, cs)

/-- Read the next construct. -/
def readConstruct? (flags : Flags) : List Char → Option (Construct × List Char)
  | [] => none
  | c :: cs => readAfter? flags cs c

/-- Extend what was read by a construct that comes after it. -/
def Reading.extend? (reading : Reading) : Construct → Option Reading
  | .opening (.flags flags) =>
    some { reading with group := reading.group.push .flags, flags }
  | .opening (.group flags name) =>
    if name.any reading.names.contains then none
    else
      some { group := { outerFlags := reading.flags }, outer := reading.group :: reading.outer,
             flags, names := name.toList ++ reading.names }
  | .closing =>
    match reading.outer with
    | [] => none
    | group :: outer =>
      some { reading with
        group := group.push (.expression reading.group.close), outer,
        flags := reading.group.outerFlags }
  | .bar =>
    some { reading with
      group := { reading.group with
        alternatives := reading.group.sequence :: reading.group.alternatives, items := [] } }
  | .expression regex => some (reading.push regex)
  | .repetition f => (reading.group.repeatLast? f).map fun group => { reading with group }

/-- To repeat the last expression is to read a repetition and then to extend the reading by it. -/
theorem repeatLast?_eq (reading : Reading) (cs : List Char) (f : Bool → Regex → Option Regex) :
    reading.repeatLast? cs f = (readRepetition? reading.flags f cs).bind fun read =>
      (reading.extend? read.1).map (·, read.2) := by
  rw [Reading.repeatLast?, readRepetition?, Option.bind_some, Option.bind_some]
  dsimp only [Reading.extend?]
  rcases reading.group.repeatLast? (f (parseLazy reading.flags cs).1) with - | group
  · rfl
  · rfl

/-- A step reads a construct and extends the reading by it. -/
theorem step?_eq (reading : Reading) (cs : List Char) :
    reading.step? cs = (readConstruct? reading.flags cs).bind fun read =>
      (reading.extend? read.1).map (·, read.2) := by
  -- a construct that is an expression is pushed, whichever it is
  have hexpression : ∀ (regex : Option Regex) (cs : List Char),
      (regex.map fun regex => (reading.push regex, cs)) =
        ((expression? regex).map (·, cs)).bind fun read =>
          (reading.extend? read.1).map (·, read.2) := by
    intro regex cs
    rcases regex with - | regex
    · rfl
    · rfl
  rw [Reading.step?.eq_def]
  split
  · rfl
  · rename_i cs
    rw [readConstruct?, readAfter?, Reading.open?]
    rcases parseOpening? reading.flags cs with - | ⟨⟨flags, name⟩ | flags, rest⟩
    · rfl
    · dsimp only [Option.map_some, Option.bind_some, Reading.extend?]
      split <;> rfl
    · rfl
  · rw [readConstruct?, readAfter?, Option.bind_some]
    dsimp only [Reading.extend?]
    rcases reading.outer with - | ⟨group, outer⟩
    · rfl
    · rfl
  · rw [readConstruct?, readAfter?]
    rfl
  · rename_i cs
    rw [readConstruct?, readAfter?, readClass?, Option.bind_some]
    dsimp only
    rcases parseClass? reading.flags _ _ [] _ with - | ⟨set, rest⟩
    · rfl
    · rfl
  · rw [readConstruct?, readAfter?, repeatLast?_eq]
  · rw [readConstruct?, readAfter?, repeatLast?_eq]
  · rw [readConstruct?, readAfter?, repeatLast?_eq]
  · rename_i cs
    rw [readConstruct?, readAfter?]
    rcases parseCount? reading.flags cs with - | ⟨count, rest⟩
    · rfl
    · exact repeatLast?_eq reading _ _
  · rename_i cs
    rw [readConstruct?, readAfter?]
    rcases parseEscape? reading.flags cs with - | ⟨primitive, rest⟩
    · rfl
    · exact hexpression _ rest
  · rename_i cs
    rw [readConstruct?, readAfter?, ← hexpression, Option.map_map]
    rfl
  · rw [readConstruct?, readAfter?]
    rfl
  · rw [readConstruct?, readAfter?]
    rfl
  · rw [readConstruct?, readAfter?, hexpression]
    all_goals assumption

/-- A repetition looks for a question mark at most. -/
theorem steady_readRepetition? (flags : Flags) (f : Bool → Regex → Option Regex) :
    Steady (readRepetition? flags f) :=
  (steady_parseLazy flags).bind fun greedy => steady_some (Construct.repetition (f greedy))

/-- Every construct but an escape is read without a look behind it; an escape may look for a
brace. -/
theorem steady_readAfter? (flags : Flags) {c : Char} (hc : c ≠ '\\') :
    Steady fun cs => readAfter? flags cs c := by
  simp only [readAfter?.eq_def]
  split
  · exact (steady_parseOpening? flags).map Construct.opening
  · exact steady_some _
  · exact steady_some _
  · exact (steady_readClass? flags).map fun set => Construct.expression (.chars set)
  · exact steady_readRepetition? flags _
  · exact steady_readRepetition? flags _
  · exact steady_readRepetition? flags _
  · exact (steady_parseCount? flags).bind fun count =>
      (steady_readRepetition? flags (count.repeat? flags.dialect)).skip flags
  · exact absurd rfl hc
  · exact steady_pure _
  · exact steady_some _
  · exact steady_some _
  · exact steady_pure _

/-- Whatever the construct is, what is left is an end of the text. -/
theorem shrinks_readAfter? (flags : Flags) (c : Char) :
    Shrinks fun cs => readAfter? flags cs c := by
  by_cases hc : c = '\\'
  · rw [hc]
    exact (Shrinks.of_cons rfl (shrinks_parseEscape? flags)).bind fun primitive =>
      (steady_pure (expression? (primitive.toRegex? flags))).shrinks
  · exact (steady_readAfter? flags hc).shrinks

/-- An escape stands for an expression, so no group is opened or closed by it. -/
theorem exists_of_readAfter?_escape {construct : Construct}
    (h : readAfter? flags cs '\\' = some (construct, rest)) :
    ∃ regex, construct = .expression regex := by
  rw [readAfter?] at h
  obtain ⟨_, -, h⟩ := Option.bind_eq_some_iff.1 h
  obtain ⟨_, hconstruct, heq⟩ := Option.map_eq_some_iff.1 h
  cases heq
  obtain ⟨regex, -, rfl⟩ := Option.map_eq_some_iff.1 hconstruct
  exact ⟨regex, rfl⟩

/-- Only the parenthesis itself closes a group. -/
theorem eq_of_readAfter?_closing {c : Char} (h : readAfter? flags cs c = some (.closing, rest)) :
    c = ')' := by
  have hexpression : ∀ regex cs, (expression? regex).map (·, cs) ≠ some (.closing, rest) := by
    rintro (- | regex) cs
    · exact nofun
    · exact nofun
  have hrepetition : ∀ f cs, readRepetition? flags f cs ≠ some (.closing, rest) :=
    fun _ _ => nofun
  unfold readAfter? at h
  split at h
  · obtain ⟨_, -, heq⟩ := Option.map_eq_some_iff.1 h
    cases heq
  · rfl
  · cases h
  · obtain ⟨_, -, heq⟩ := Option.map_eq_some_iff.1 h
    cases heq
  · exact absurd h (hrepetition _ _)
  · exact absurd h (hrepetition _ _)
  · exact absurd h (hrepetition _ _)
  · obtain ⟨_, -, heq⟩ := Option.bind_eq_some_iff.1 h
    exact absurd heq (hrepetition _ _)
  · obtain ⟨_, -, heq⟩ := Option.bind_eq_some_iff.1 h
    exact absurd heq (hexpression _ _)
  · exact absurd h (hexpression _ _)
  · cases h
  · cases h
  · exact absurd h (hexpression _ _)

/-- A construct is read before every stop, unless a brace with nothing in it comes after an
escape. -/
theorem readAfter?_before {c : Char} {construct : Construct}
    (h : readAfter? flags (cs ++ ')' :: others) c = some (construct, rest ++ ')' :: others))
    (hbraced : c = '\\' → Braced flags rest) (hstop : Stop stop) :
    readAfter? flags (cs ++ stop) c = some (construct, rest ++ stop) := by
  by_cases hc : c = '\\'
  · subst hc
    rw [readAfter?] at h ⊢
    obtain ⟨⟨primitive, text⟩, hescape, h⟩ := Option.bind_eq_some_iff.1 h
    obtain ⟨construct, hconstruct, heq⟩ := Option.map_eq_some_iff.1 h
    cases heq
    cases cs with
    | nil => exact absurd (shrinks_parseEscape? flags ')' hescape) not_suffix_of_cons
    | cons c cs =>
      rw [List.cons_append, parseEscape?_before hescape (hbraced rfl) hstop, Option.bind_some]
      dsimp only
      rw [hconstruct]
      rfl
  · exact (steady_readAfter? flags hc).steadyAt cs h hstop

/-- There is no count in a brace with nothing in it. -/
theorem parseCount?_eq_none (h : flags.skip cs = []) : parseCount? flags cs = none := by
  rw [parseCount?_eq, h]
  rfl

end Peg.Regex
