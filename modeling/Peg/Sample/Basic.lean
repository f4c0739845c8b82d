/-
Peg/Sample/Basic.lean

Parsers as functions.

A grammar can be run as a program, or be turned into functions, one for each
rule, that apply the combinators directly.  The sample grammars of this folder
are given in both forms: as a text to compile, and as the functions that
generated code consists of.  This module holds what these functions share.

A matcher of a sequence may depend on the values of the earlier items, since
it may have to match the same text again.
-/
import Peg.Combinator
import Peg.Program.Run
import Peg.Regex.Parser

namespace Peg.Sample

/-! ### Matchers of texts -/

/-- The outcome of a primitive matcher as the run of a rule. -/
def ofText (primitive : List Char → Nat → Outcome String) : Matching Value := fun input start =>
  Run.primitive ((primitive input start).map .str)

/-- An exact text. -/
def literal (string : String) : Matching Value :=
  ofText (Primitive.literal string)

/-- A regular expression as a grammar writes it, along with the text that failures show. -/
structure Expression where
  source : String
  regex : Regex

/-- The expression for a source; one that is not well formed matches nothing. -/
def Expression.of (source : String) : Expression :=
  ⟨source, (Regex.pattern? source "").getD .never⟩

/-- A regular expression. -/
def regex (expression : Expression) : Matching Value :=
  ofText (Primitive.regex expression.regex (Regex.describe expression.source ""))

/-! ### Repetitions -/

/-- Zero or one match. -/
def optional (body : Matching Value) : Matching Value := fun input start =>
  (Combinator.optional body input start).mapValue Value.ofOption

/-- More attempts than the text has bytes, as each but the last one reads one. -/
def attempts (input : List Char) : Nat :=
  Text.size input + 2

/-- Any number of matches. -/
def many (body : Matching Value) : Matching Value := fun input start =>
  (Combinator.many (attempts input) body input start).mapValue .list

/-- At least one match. -/
def many1 (body : Matching Value) : Matching Value := fun input start =>
  (Combinator.many1 (attempts input) body input start).mapValue .list

/-- One character at which the body does not match. -/
def negative (body : Matching Value) : Matching Value := fun input start =>
  (Combinator.negative body input start).mapValue .str

/-! ### Sequences -/

/-- The values of items that do not depend on each other. -/
def sequence (items : List (Matching Value)) : Matching (List Value) :=
  Combinator.sequence (items.map fun item _ => item) []

/-- A group, of which the values at some indexes are kept. -/
def group (items : List (Matching Value)) (important : List Nat) : Matching Value :=
  fun input start =>
    (sequence items input start).mapValue fun values => .ofItems (project values important)

/-- An alternative without a mapper. -/
def alternative (items : List (Matching Value)) : Matching Value :=
  group items []

/-- The text that a sequence matches. -/
def textOf (items : Matching (List Value)) : Matching Value := fun input start =>
  Run.andThen (items input start) fun _ stop =>
    .done (.success (.str (Primitive.textBetween input start stop)) stop)

/-- A template, which skips the blanks after its match. -/
def lexeme (body : Matching Value) : Matching Value := fun input start =>
  Run.andThen (body input start) fun value stop =>
    .done (.success value (Primitive.skipBlank input stop))

end Peg.Sample
