/-
Peg/Proofs/Sample/Sums.lean

The sample parser of sums computes sums.

A sum is written as numbers with plus signs between them, with blanks after
every number and every plus sign (`Written`).  Whatever is written this way is
read to its end, before anything that neither goes on with a number or blanks
nor adds another number.  And whatever is read is written this way.

Both directions give the same value, `Int64.ofNat` of the sum, without a
proviso: the arithmetic wraps around, and as long as the sum is below 2 ^ 63
there is nothing to wrap.  The numbers are not negative, so the whole sum is
the greatest of the sums on the way to it.
-/
import Mathlib.Algebra.GroupWithZero.Nat
import Peg.Proofs.Grammar.Escape
import Peg.Proofs.Grammar.Token
import Peg.Proofs.Program.Progress
import Peg.Proofs.Program.Reads
import Peg.Proofs.Run.Ensures
import Peg.Proofs.Run.Outcome
import Peg.Proofs.Text.Boundary
import Peg.Proofs.Text.Split
import Peg.Sample.Sums

namespace Peg.Sample.Sums

open Text Regex

/-! ### Written sums -/

/-- A number as it is written: digits and the blanks after them. -/
structure Term where
  digits : List Char
  blanks : List Char
  digits_ne_nil : digits ≠ []
  isDigit : ∀ c ∈ digits, c.isDigit = true
  isBlank : ∀ c ∈ blanks, Text.isBlank c = true

/-- A plus sign, the blanks after it, and a number. -/
structure Addend where
  gap : List Char
  term : Term
  isBlank : ∀ c ∈ gap, Text.isBlank c = true

/-- A sum as it is written. -/
structure Written where
  first : Term
  others : List Addend

def Term.text (term : Term) : List Char :=
  term.digits ++ term.blanks

def Addend.text (addend : Addend) : List Char :=
  '+' :: (addend.gap ++ addend.term.text)

def Written.text (sum : Written) : List Char :=
  sum.first.text ++ sum.others.flatMap Addend.text

/-- The greatest integer there is. -/
abbrev greatest : Nat :=
  2 ^ 63 - 1

/-- What a number counts: nothing if it is greater than the greatest integer. -/
def Term.amount (term : Term) : Nat :=
  if Nat.ofDigitChars 10 term.digits 0 ≤ greatest then Nat.ofDigitChars 10 term.digits 0 else 0

/-- The sum of the numbers. -/
def Written.total (sum : Written) : Nat :=
  sum.first.amount + (sum.others.map fun addend => addend.term.amount).sum

/-! ### Integers -/

theorem integerOf_digits (term : Term) :
    integerOf (String.ofList term.digits) = Int64.ofNat term.amount := by
  rw [integerOf, String.toList_ofList, Token.numberOf?_digits term.digits_ne_nil term.isDigit]
  show (if _ ≤ greatest then _ else _) = _
  rw [Term.amount]
  split
  · rfl
  · rfl

theorem foldl_ofNat (amounts : List Nat) (start : Nat) :
    (amounts.map Int64.ofNat).foldl (· + ·) (Int64.ofNat start) =
      Int64.ofNat (start + amounts.sum) := by
  induction amounts generalizing start with
  | nil => rfl
  | cons amount amounts ih =>
    rw [List.map_cons, List.foldl_cons, ← Int64.ofNat_add, ih, List.sum_cons, Nat.add_assoc]

/-- The integers of the numbers add up to that of the sum. -/
theorem value_eq (sum : Written) :
    Int64.ofNat sum.first.amount +
        (sum.others.map fun addend => Int64.ofNat addend.term.amount).foldl (· + ·) 0 =
      Int64.ofNat sum.total := by
  have hothers := foldl_ofNat (sum.others.map fun addend => addend.term.amount) 0
  rw [List.map_map, Nat.zero_add] at hothers
  rw [Written.total, Int64.ofNat_add, ← hothers]
  rfl

/-- A sum that fits is the value of its integer. -/
theorem toInt_ofNat_total {sum : Written} (h : sum.total ≤ greatest) :
    (Int64.ofNat sum.total).toInt = sum.total :=
  Int64.toInt_ofNat_of_lt (Nat.lt_of_le_of_lt h (by decide))

/-! ### Reading what is written -/

/-- The text does not go on with blanks, with a digit or with another number to add. -/
def EndsSum (suffix : List Char) : Prop :=
  ∀ c ∈ suffix.head?, Text.isBlank c = false ∧ c.isDigit = false ∧ c ≠ '+'

instance : DecidablePred EndsSum
  | [] => isTrue fun _ hc => absurd hc (Option.not_mem_none _)
  | c :: _ => decidable_of_iff (Text.isBlank c = false ∧ c.isDigit = false ∧ c ≠ '+')
    ⟨fun h _ hc => Option.some.inj hc ▸ h, fun h => h c rfl⟩

/-- The text does not go on with blanks or a digit, so a number ends before it. -/
def EndsTerm (text : List Char) : Prop :=
  ∀ c ∈ text.head?, Text.isBlank c = false ∧ c.isDigit = false

variable {input word rest suffix : List Char} {start : Nat}

theorem EndsSum.endsTerm (h : EndsSum suffix) : EndsTerm suffix :=
  fun c hc => ⟨(h c hc).1, (h c hc).2.1⟩

/-- What is added comes after a number and is no part of it. -/
theorem endsTerm_others (others : List Addend) (h : EndsTerm suffix) :
    EndsTerm (others.flatMap Addend.text ++ suffix) := by
  cases others with
  | nil => exact h
  | cons addend others =>
    intro c hc
    obtain rfl : '+' = c := Option.some.inj hc
    decide

theorem digits_regex : digits.regex = Meta.anchored (.plus true (.chars Meta.digitSet)) := rfl

theorem blanks_regex : blanks.regex = Meta.anchored (.star true (.chars (.named .blank))) := rfl

/-- An expression reads a word where it is written. -/
theorem outcome?_regex {expression : Expression} {body : Regex}
    (hexpression : expression.regex = Meta.anchored body) (hreads : body.Reads word rest)
    (hinput : dropBytes? input start = some (word ++ rest)) :
    (regex expression input start).outcome? =
      some (.success (.str (String.ofList word)) (start + size word)) := by
  have hlength : expression.regex.matchLength? (word ++ rest) = some (size word) := by
    rw [hexpression]
    exact (matchLength?_textStart body _).trans (hreads none)
  have hprimitive : Primitive.regex expression.regex (Regex.describe expression.source "") input
      start = .success (String.ofList word) (start + size word) := by
    simp only [Primitive.regex, hinput, hlength, takeBytes?_append, Option.getD_some]
  rw [regex, ofText, Run.outcome?_primitive, hprimitive]
  rfl

/-- An alternative with one item is that item. -/
theorem alternative_single (item : Matching Value) : alternative [item] = item := by
  funext input start
  show Run.mapValue _ (Run.andThen (item input start) _) = item input start
  rcases item input start with - | ⟨events, ⟨value, stop⟩ | failure | fault⟩
  · rfl
  · show some (events ++ [], Outcome.success value stop) = some (events, .success value stop)
    rw [List.append_nil]
  · rfl
  · rfl

theorem outcome?_ws {blanks : List Char} (hblanks : ∀ c ∈ blanks, Text.isBlank c = true)
    (hrest : ∀ c ∈ rest.head?, Text.isBlank c = false)
    (hinput : dropBytes? input start = some (blanks ++ rest)) :
    (ws input start).outcome? =
      some (.success (.str (String.ofList blanks)) (start + size blanks)) := by
  rw [ws, alternative_single]
  exact outcome?_regex blanks_regex (reads_star hblanks hrest) hinput

theorem isDigit_of_isBlank {c : Char} (h : Text.isBlank c = true) : c.isDigit = false := by
  rw [Text.isBlank] at h
  rw [Bool.eq_false_iff]
  intro hdigit
  have hbounds : 48 ≤ c.toNat ∧ c.toNat ≤ 57 := Char.isDigit_iff_toNat.1 hdigit
  simp at h
  omega

/-- A number is read to its end. -/
theorem outcome?_number (term : Term) (hrest : EndsTerm rest)
    (hinput : dropBytes? input start = some (term.text ++ rest)) :
    (number input start).outcome? =
      some (.success (Int64.ofNat term.amount) (start + size term.text)) := by
  rw [Term.text, List.append_assoc] at hinput
  have hdigits : Meta.digitSet.Avoids (term.blanks ++ rest) := by
    intro c hc
    cases hblanks : term.blanks with
    | nil =>
      rw [hblanks] at hc
      exact (hrest c hc).2
    | cons b blanks =>
      -- no blank is a digit
      rw [hblanks] at hc
      obtain rfl : b = c := Option.some.inj hc
      have hblank := term.isBlank b (by rw [hblanks]; exact List.mem_cons_self ..)
      exact isDigit_of_isBlank hblank
  have hread := outcome?_regex digits_regex
    (reads_plus term.isDigit term.digits_ne_nil hdigits) hinput
  have hws := outcome?_ws term.isBlank (fun c hc => (hrest c hc).1) (dropBytes?_add hinput)
  rw [number, Run.outcome?_andThen hread, Run.outcome?_mapValue, hws, Term.text, size_append,
    ← Nat.add_assoc]
  exact congrArg (fun value => some (Outcome.success value _)) (integerOf_digits term)

theorem template_eq (param : String) : template param = lexeme (literal param) := by
  rw [template, alternative_single]

/-- The template reads its literal and the blanks after it. -/
theorem outcome?_template {gap : List Char} (hgap : ∀ c ∈ gap, Text.isBlank c = true)
    (hrest : ∀ c ∈ rest.head?, Text.isBlank c = false)
    (hinput : dropBytes? input start = some ('+' :: (gap ++ rest))) :
    (template "+" input start).outcome? =
      some (.success (.str "+") (start + size ('+' :: gap))) := by
  have hsign : dropBytes? input start = some ("+".toList ++ (gap ++ rest)) := hinput
  have hliteral : (literal "+" input start).outcome? = some (.success (.str "+") (start + 1)) := by
    rw [literal, ofText, Run.outcome?_primitive, Primitive.literal_of_append hsign]
    rfl
  have hskip : Primitive.skipBlank input (start + 1) = start + size ('+' :: gap) := by
    have hafter : dropBytes? input (start + size ['+']) = some (gap ++ rest) :=
      dropBytes?_add hinput
    rw [Primitive.skipBlank, show start + 1 = start + size ['+'] from rfl, hafter]
    show start + 1 + size ((gap ++ rest).takeWhile _) = start + (1 + size gap)
    rw [takeWhile_append_of_head? hgap hrest, Nat.add_assoc]
  rw [template_eq, lexeme, Run.outcome?_andThen hliteral]
  show some (Outcome.success _ (Primitive.skipBlank input (start + 1))) = _
  rw [hskip]

/-- A number begins with a digit, which is no blank. -/
theorem Term.not_isBlank_head (term : Term) (rest : List Char) :
    ∀ c ∈ (term.text ++ rest).head?, Text.isBlank c = false := by
  intro c hc
  cases hdigits : term.digits with
  | nil => exact absurd hdigits term.digits_ne_nil
  | cons digit digits =>
    rw [Term.text, hdigits] at hc
    obtain rfl : digit = c := Option.some.inj hc
    rw [Bool.eq_false_iff]
    intro hblank
    have hdigit := term.isDigit digit (by rw [hdigits]; exact List.mem_cons_self ..)
    rw [isDigit_of_isBlank hblank] at hdigit
    cases hdigit

/-- A plus sign and a number are read to their end. -/
theorem outcome?_plus (addend : Addend) (hrest : EndsTerm rest)
    (hinput : dropBytes? input start = some (addend.text ++ rest)) :
    (plus input start).outcome? =
      some (.success (Int64.ofNat addend.term.amount) (start + size addend.text)) := by
  rw [Addend.text, List.cons_append, List.append_assoc] at hinput
  have htemplate := outcome?_template addend.isBlank (addend.term.not_isBlank_head rest) hinput
  have hterm : dropBytes? input (start + size ('+' :: addend.gap)) =
      some (addend.term.text ++ rest) := dropBytes?_add hinput
  rw [plus, Run.outcome?_andThen htemplate, outcome?_number addend.term hrest hterm, Addend.text,
    ← List.cons_append, size_append, ← Nat.add_assoc]

/-- No number is added before a text that does not begin with a plus sign. -/
theorem outcome?_plus_refused (hsuffix : EndsSum suffix)
    (hinput : dropBytes? input start = some suffix) :
    (plus input start).outcome? = some (.failure ⟨"+", start⟩) := by
  have hsign : ¬ "+".toList <+: suffix := by
    rintro ⟨rest, rfl⟩
    exact (hsuffix '+' rfl).2.2 rfl
  have hliteral : (literal "+" input start).outcome? = some (.failure ⟨"+", start⟩) := by
    rw [literal, ofText, Run.outcome?_primitive, Primitive.literal_of_not_prefix hinput hsign]
    rfl
  rw [plus, template_eq, lexeme]
  exact Run.outcome?_andThen_failure (Run.outcome?_andThen_failure hliteral)

/-- All that is added is read. -/
theorem outcome?_others (others : List Addend) (hsuffix : EndsSum suffix)
    (hinput : dropBytes? input start = some (others.flatMap Addend.text ++ suffix)) {fuel : Nat}
    (hfuel : others.length < fuel) :
    (Combinator.many fuel plus input start).outcome? =
      some (.success (others.map fun addend => Int64.ofNat addend.term.amount)
        (start + size (others.flatMap Addend.text))) := by
  obtain ⟨fuel, rfl⟩ := Nat.exists_eq_add_one_of_ne_zero (Nat.ne_of_gt (Nat.zero_lt_of_lt hfuel))
  induction others generalizing start fuel with
  | nil => exact Combinator.outcome?_many_refused (outcome?_plus_refused hsuffix hinput) rfl
  | cons addend others ih =>
    rw [List.flatMap_cons, List.append_assoc] at hinput
    have hplus := outcome?_plus addend (endsTerm_others others hsuffix.endsTerm) hinput
    have hmoved : start + size addend.text ≠ start := by
      have : size addend.text = 1 + size (addend.gap ++ addend.term.text) := rfl
      omega
    obtain ⟨fuel, rfl⟩ := Nat.exists_eq_add_one_of_ne_zero
      (show fuel ≠ 0 by rw [List.length_cons] at hfuel; omega)
    have hothers := ih (dropBytes?_add hinput) fuel (by rw [List.length_cons] at hfuel; omega)
    rw [List.flatMap_cons, size_append, ← Nat.add_assoc]
    exact Combinator.outcome?_many hplus hmoved hothers

/-- A written sum is read to its end. -/
theorem outcome?_parse (sum : Written) (hsuffix : EndsSum suffix) :
    (parse (sum.text ++ suffix)).outcome? =
      some (.success (Int64.ofNat sum.total) (size sum.text)) := by
  have hinput : dropBytes? (sum.text ++ suffix) 0 =
      some (sum.first.text ++ (sum.others.flatMap Addend.text ++ suffix)) := by
    rw [dropBytes?_zero, Written.text, List.append_assoc]
  have hfirst := outcome?_number sum.first (endsTerm_others sum.others hsuffix.endsTerm) hinput
  -- every number that is added takes a plus sign at least
  have hlength : ∀ others : List Addend, others.length ≤ size (others.flatMap Addend.text) := by
    intro others
    induction others with
    | nil => exact Nat.le_refl 0
    | cons addend others ih =>
      have : size addend.text = 1 + size (addend.gap ++ addend.term.text) := rfl
      rw [List.length_cons, List.flatMap_cons, size_append]
      omega
  have hfuel : sum.others.length < attempts (sum.text ++ suffix) := by
    have := hlength sum.others
    rw [attempts, Written.text, size_append, size_append]
    omega
  have hothers := outcome?_others sum.others hsuffix (dropBytes?_add hinput) hfuel
  rw [parse, Sums.sum, Run.outcome?_andThen hfirst, Run.outcome?_mapValue, hothers, Nat.zero_add,
    ← size_append]
  exact congrArg (fun value => some (Outcome.success value _)) (value_eq sum)

/-! ### What is read -/

variable {stop : Nat}

/-- What an expression reads is in its language. -/
theorem regex_ensures {expression : Expression} {body : Regex}
    (hexpression : expression.regex = Meta.anchored body) :
    (regex expression input start).Ensures
      (fun value stop => ∃ word, slice? input start stop = some word ∧ body.Accepts word ∧
        value = .str (String.ofList word))
      fun _ => True := by
  refine .primitive (fun value stop hsuccess => ?_) fun _ _ => trivial
  obtain ⟨text, hregex, rfl⟩ := Outcome.map_eq_success hsuccess
  obtain ⟨here, length, hhere, hlength, rfl, rfl⟩ := Primitive.regex_eq_success hregex
  obtain ⟨word, rest, rfl, rfl, haccepts⟩ := accepts_of_matchLength? hlength
  rw [takeBytes?_append, Option.getD_some]
  refine ⟨word, slice?_of_dropBytes? hhere, ?_, rfl⟩
  -- the anchor accepts nothing but the empty word
  rw [hexpression] at haccepts
  obtain ⟨left, right, rfl, hleft, hright⟩ := accepts_seq_iff.1 haccepts
  cases hleft with
  | assertion => exact hright

theorem ws_ensures : (ws input start).Ensures
    (fun _ stop => ∃ blanks, slice? input start stop = some blanks ∧
      ∀ c ∈ blanks, Text.isBlank c = true) fun _ => True := by
  rw [ws, alternative_single]
  refine (regex_ensures blanks_regex).mono ?_ fun _ h => h
  rintro value stop ⟨word, hslice, haccepts, -⟩
  exact ⟨word, hslice, haccepts.loop_of_star.covers_loop⟩

/-- What is read as a number is written as one. -/
theorem number_ensures : (number input start).Ensures
    (fun value stop => ∃ term : Term, slice? input start stop = some term.text ∧
      value = Int64.ofNat term.amount) fun _ => True := by
  refine (regex_ensures digits_regex).andThen fun value middle hdigits => ?_
  obtain ⟨digits, hslice, haccepts, rfl⟩ := hdigits
  refine .mapValue _ (ws_ensures.mono ?_ fun _ h => h)
  rintro _ stop ⟨blanks, hblanks, hblank⟩
  obtain ⟨hdigit, hne⟩ := haccepts.covers_plus
  refine ⟨⟨digits, blanks, hne, hdigit, hblank⟩, slice?_trans hslice hblanks, ?_⟩
  exact integerOf_digits ⟨digits, blanks, hne, hdigit, hblank⟩

theorem template_ensures : (template "+" input start).Ensures
    (fun _ stop => ∃ gap, slice? input start stop = some ('+' :: gap) ∧
      ∀ c ∈ gap, Text.isBlank c = true) fun _ => True := by
  rw [template_eq]
  have hliteral : (literal "+" input start).Ensures
      (fun _ stop => slice? input start stop = some ['+']) fun _ => True := by
    refine .primitive (fun value stop hsuccess => ?_) fun _ _ => trivial
    obtain ⟨text, hliteral, -⟩ := Outcome.map_eq_success hsuccess
    obtain ⟨-, rfl, rest, hrest⟩ := Primitive.literal_eq_success hliteral
    exact slice?_of_dropBytes? hrest
  refine hliteral.andThen fun value middle hplus => ?_
  obtain ⟨rest, hrest⟩ := Option.isSome_iff_exists.1 (isOffset_of_slice? hplus).boundary
  have hskip : slice? input middle (Primitive.skipBlank input middle) =
      some (rest.takeWhile Text.isBlank) := by
    rw [← rest.takeWhile_append_dropWhile (p := Text.isBlank)] at hrest
    have hblanks := slice?_of_dropBytes? hrest
    rw [List.takeWhile_append_dropWhile] at hrest
    rwa [Primitive.skipBlank, hrest]
  exact ⟨rest.takeWhile Text.isBlank, slice?_trans hplus hskip,
    fun c hc => List.mem_takeWhile_imp hc⟩

theorem plus_ensures : (plus input start).Ensures
    (fun value stop => ∃ addend : Addend, slice? input start stop = some addend.text ∧
      value = Int64.ofNat addend.term.amount) fun _ => True := by
  refine template_ensures.andThen fun _ middle hgap => ?_
  obtain ⟨gap, hslice, hblank⟩ := hgap
  refine number_ensures.mono ?_ fun _ h => h
  rintro value stop ⟨term, hterm, rfl⟩
  exact ⟨⟨gap, term, hblank⟩, slice?_trans hslice hterm, rfl⟩

theorem others_ensures (hstart : IsOffset input start) (fuel : Nat) :
    (Combinator.many fuel plus input start).Ensures
      (fun values stop => ∃ others : List Addend,
        slice? input start stop = some (others.flatMap Addend.text) ∧
        values = others.map fun addend => Int64.ofNat addend.term.amount)
      fun _ => True := by
  refine Combinator.many_ensures (I := IsOffset input)
    (P := fun start values stop => ∃ others : List Addend,
      slice? input start stop = some (others.flatMap Addend.text) ∧
      values = others.map fun addend => Int64.ofNat addend.term.amount)
    (fun start hstart => ⟨[], slice?_self hstart, rfl⟩) (fun start _ => ?_) hstart
  refine plus_ensures.mono ?_ fun _ h => h
  rintro value stop ⟨addend, hslice, rfl⟩
  refine ⟨isOffset_of_slice? hslice, ?_⟩
  rintro values last ⟨others, hothers, rfl⟩
  exact ⟨addend :: others, slice?_trans hslice hothers, rfl⟩

/-- What is read as a sum is written as one. -/
theorem sum_ensures : (Sums.sum input start).Ensures
    (fun value stop => ∃ sum : Written, slice? input start stop = some sum.text ∧
      value = Int64.ofNat sum.total) fun _ => True := by
  refine number_ensures.andThen fun _ middle hfirst => ?_
  obtain ⟨first, hslice, rfl⟩ := hfirst
  refine .mapValue _ ((others_ensures (isOffset_of_slice? hslice) _).mono ?_ fun _ h => h)
  rintro _ stop ⟨others, hothers, rfl⟩
  exact ⟨⟨first, others⟩, slice?_trans hslice hothers, value_eq ⟨first, others⟩⟩

theorem exists_written {value : Int64} (h : (parse input).outcome? = some (.success value stop)) :
    ∃ (sum : Written) (rest : List Char), input = sum.text ++ rest ∧ stop = size sum.text ∧
      value = Int64.ofNat sum.total := by
  obtain ⟨events, hrun⟩ := Run.outcome?_eq_some h
  obtain ⟨sum, hslice, hvalue⟩ := Run.Ensures.success sum_ensures hrun
  obtain ⟨rest, hrest, hstop⟩ := slice?_eq_some_iff.1 hslice
  rw [dropBytes?_zero, Option.some.injEq] at hrest
  exact ⟨sum, rest, hrest, by rw [hstop, Nat.zero_add], hvalue⟩

end Peg.Sample.Sums
