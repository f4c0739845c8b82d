/-
Peg/Proofs/Host/Lexeme.lean

The lexemes of mappers.

A mapper for a generated parser is host code with variables.  As far as the
variables are concerned, host code consists of words, literals, lifetimes,
digits and other characters; of each of these it is said here how it is
written and what replaces it.

Written one after the other, lexemes may run into one another: a word goes on
with the letters that follow it.  Which text would extend a lexeme is said for
each kind.  Runs of digits and of other characters may be continued, since they
are copied all the same.
-/
import Peg.Host.Substitution
import Peg.Proofs.Text.Split

namespace Peg.Host

open Text

/-! ### Parts of lexemes -/

/-- What a variable asks for: the value of a capture, or the offset where it starts or stops. -/
inductive CaptureKind where
  | value
  | start
  | stop
  deriving DecidableEq, Repr

/-- What stands between the dollar sign and the index. -/
def CaptureKind.word : CaptureKind → List Char
  | .value => []
  | .start => "start".toList
  | .stop => "end".toList

/-- What the name of the generated variable begins with. -/
def CaptureKind.letter : CaptureKind → Char
  | .value => 'v'
  | .start => 's'
  | .stop => 'e'

/-- Words: a letter or an underscore, and what a word may go on with. -/
def IsWord (name : List Char) : Prop :=
  ∃ c cs, name = c :: cs ∧ startsWord c = true ∧ ∀ c ∈ cs, continuesWord c = true

/-- What may stand between quotes: the quote only after a backslash, and after every backslash a
character. -/
inductive IsQuoted (quote : Char) : List Char → Prop where
  | nil : IsQuoted quote []
  | plain {c : Char} {cs : List Char} (hquote : c ≠ quote) (hbackslash : c ≠ '\\')
      (h : IsQuoted quote cs) : IsQuoted quote (c :: cs)
  | escaped {cs : List Char} (c : Char) (h : IsQuoted quote cs) : IsQuoted quote ('\\' :: c :: cs)

/-- What stands between the quotes of a character literal: one character, or a backslash and an
escape. -/
def IsCharacter : List Char → Prop
  | [c] => c ≠ '\\'
  | body => body.head? = some '\\' ∧ IsQuoted '\'' body

/-- The words that a raw string may begin with. -/
def IsMarker (word : List Char) : Prop :=
  word = "r".toList ∨ word = "br".toList

/-- What ends a raw string: a quote and the hashes. -/
def rawClosing (hashes : Nat) : List Char :=
  '"' :: List.replicate hashes '#'

/-- The text begins with hashes, or none, and a double quote. -/
def OpensRaw (rest : List Char) : Prop :=
  ∃ hashes body, rest = List.replicate hashes '#' ++ '"' :: body

/-! ### Lexemes -/

/-- Lexemes of mappers. -/
inductive Lexeme where
  /-- `$N`, `$startN` or `$endN` -/
  | capture (kind : CaptureKind) (digits : List Char)
  /-- `text()` -/
  | textCall
  | word (name : List Char)
  /-- `"body"` -/
  | string (body : List Char)
  /-- `r#"body"#` or `br#"body"#`, with any number of hashes -/
  | rawString (marker : List Char) (hashes : Nat) (body : List Char)
  /-- `'body'` -/
  | character (body : List Char)
  /-- `'name` -/
  | lifetime (name : List Char)
  | number (run : List Char)
  | other (run : List Char)

namespace Lexeme

/-- The lexeme as it is written. -/
def print : Lexeme → List Char
  | capture kind digits => '$' :: (kind.word ++ digits)
  | textCall => "text()".toList
  | word name => name
  | string body => '"' :: (body ++ ['"'])
  | rawString marker hashes body =>
    marker ++ (List.replicate hashes '#' ++ '"' :: (body ++ rawClosing hashes))
  | character body => '\'' :: (body ++ ['\''])
  | lifetime name => '\'' :: name
  | number run => run
  | other run => run

/-- What is to replace it: only variables and the call are replaced. -/
def replacement : Lexeme → List Char
  | capture kind digits => kind.letter :: digits
  | textCall => "rt::matched_text(input, start, end)".toList
  | lexeme => lexeme.print

/-- The parts of a lexeme are what they have to be. -/
def WellFormed : Lexeme → Prop
  | capture _ digits => digits ≠ [] ∧ ∀ c ∈ digits, c.isDigit = true
  | textCall => True
  | word name => IsWord name
  | string body => IsQuoted '"' body
  | rawString marker hashes body => IsMarker marker ∧ ¬rawClosing hashes <:+: body
  | character body => IsCharacter body
  | lifetime name => IsWord name
  | number run => ∀ c ∈ run, c.isDigit = true
  | other run => ∀ c ∈ run, (c ≠ '"' ∧ c ≠ '\'' ∧ c ≠ '$') ∧ continuesWord c = false

/-- The text after a lexeme would make a longer lexeme of it. -/
def ExtendedBy (lexeme : Lexeme) (rest : List Char) : Prop :=
  match lexeme with
  | capture _ _ => ∃ c ∈ rest.head?, c.isDigit = true
  | word name => (∃ c ∈ rest.head?, continuesWord c = true) ∨
      (name = "text".toList ∧ "()".toList <+: rest) ∨ (IsMarker name ∧ OpensRaw rest)
  | lifetime name => (∃ c ∈ rest.head?, continuesWord c = true) ∨
      (name.length = 1 ∧ rest.head? = some '\'')
  | _ => False

/-- A lifetime whose name, without the quote, would be the call. -/
def HidesCall (lexeme : Lexeme) (rest : List Char) : Prop :=
  match lexeme with
  | lifetime name => name = "text".toList ∧ "()".toList <+: rest
  | _ => False

/-- A lifetime whose name, without the quote, would begin a raw string. -/
def HidesRawString (lexeme : Lexeme) (rest : List Char) : Prop :=
  match lexeme with
  | lifetime name => IsMarker name ∧ OpensRaw rest
  | _ => False

end Lexeme

/-! ### Lists of lexemes -/

/-- The text of lexemes. -/
def printLexemes (lexemes : List Lexeme) : List Char :=
  lexemes.flatMap Lexeme.print

/-- The text in which they are replaced. -/
def replaceLexemes (lexemes : List Lexeme) : List Char :=
  lexemes.flatMap Lexeme.replacement

/-- Something holds of every lexeme and the text after it. -/
def Everywhere (holds : Lexeme → List Char → Prop) : List Lexeme → Prop
  | [] => True
  | lexeme :: lexemes => holds lexeme (printLexemes lexemes) ∧ Everywhere holds lexemes

/-! ### Decidability -/

-- characters are decided one after the other, not by going over all there are
local instance (priority := high) decidableForallChar (p : Char → Prop) [DecidablePred p]
    (cs : List Char) : Decidable (∀ c ∈ cs, p c) :=
  List.decidableBAll p cs

local instance (priority := high) decidableExistsChar (p : Char → Prop) [DecidablePred p]
    (c? : Option Char) : Decidable (∃ c ∈ c?, p c) :=
  Option.decidableExistsMem c?

instance (name : List Char) : Decidable (IsWord name) :=
  match name with
  | [] => isFalse nofun
  | c :: cs =>
    decidable_of_iff (startsWord c = true ∧ ∀ c ∈ cs, continuesWord c = true)
      ⟨fun h => ⟨c, cs, rfl, h⟩, fun ⟨_, _, heq, h⟩ => by cases heq; exact h⟩

/-- Whether the quote is in a text only after backslashes. -/
def decideQuoted (quote : Char) : (body : List Char) → Decidable (IsQuoted quote body)
  | [] => isTrue .nil
  | c :: cs =>
    if hbackslash : c = '\\' then
      match cs with
      | [] => isFalse fun h => by cases h; contradiction
      | d :: cs =>
        match decideQuoted quote cs with
        | isTrue h => isTrue (hbackslash ▸ .escaped d h)
        | isFalse h => isFalse fun hall => by
            cases hall with
            | plain _ hplain _ => exact hplain hbackslash
            | escaped _ hcs => exact h hcs
    else if hquote : c = quote then isFalse fun h => by
      cases h with
      | plain hplain _ _ => exact hplain hquote
      | escaped _ _ => exact hbackslash rfl
    else
      match decideQuoted quote cs with
      | isTrue h => isTrue (.plain hquote hbackslash h)
      | isFalse h => isFalse fun hall => by
          cases hall with
          | plain _ _ hcs => exact h hcs
          | escaped _ _ => exact hbackslash rfl

instance (quote : Char) (body : List Char) : Decidable (IsQuoted quote body) :=
  decideQuoted quote body

instance (body : List Char) : Decidable (IsCharacter body) :=
  match body with
  | [] => inferInstanceAs (Decidable (_ ∧ _))
  | [_] => inferInstanceAs (Decidable (_ ≠ _))
  | _ :: _ :: _ => inferInstanceAs (Decidable (_ ∧ _))

instance (word : List Char) : Decidable (IsMarker word) :=
  inferInstanceAs (Decidable (_ ∨ _))

/-- A raw string is opened where a quote is what comes after the hashes. -/
theorem opensRaw_iff {rest : List Char} :
    OpensRaw rest ↔ (rest.dropWhile (· == '#')).head? = some '"' := by
  constructor
  · rintro ⟨hashes, body, rfl⟩
    have hrun : ∀ c ∈ List.replicate hashes '#', (c == '#') = true := by
      intro c hc
      rw [List.eq_of_mem_replicate hc]
      rfl
    rw [List.dropWhile_append_of_pos hrun]
    rfl
  · intro h
    obtain ⟨body, hbody⟩ := List.head?_eq_some_iff.1 h
    have hhashes : rest.takeWhile (· == '#') =
        List.replicate (rest.takeWhile (· == '#')).length '#' :=
      List.eq_replicate_of_mem fun c hc => by simpa using List.mem_takeWhile_imp hc
    refine ⟨(rest.takeWhile (· == '#')).length, body, ?_⟩
    rw [← hhashes, ← hbody]
    exact List.takeWhile_append_dropWhile.symm

instance (rest : List Char) : Decidable (OpensRaw rest) :=
  decidable_of_iff _ opensRaw_iff.symm

namespace Lexeme

instance (lexeme : Lexeme) : Decidable lexeme.WellFormed :=
  match lexeme with
  | capture _ _ | rawString _ _ _ => inferInstanceAs (Decidable (_ ∧ _))
  | textCall => inferInstanceAs (Decidable True)
  | word name | lifetime name => inferInstanceAs (Decidable (IsWord name))
  | string body => inferInstanceAs (Decidable (IsQuoted '"' body))
  | character body => inferInstanceAs (Decidable (IsCharacter body))
  | number run | other run => inferInstanceAs (Decidable (∀ c ∈ run, _))

instance (lexeme : Lexeme) (rest : List Char) : Decidable (lexeme.ExtendedBy rest) :=
  match lexeme with
  | capture _ _ => inferInstanceAs (Decidable (∃ c ∈ rest.head?, c.isDigit = true))
  | word _ | lifetime _ => inferInstanceAs (Decidable (_ ∨ _))
  | textCall | string _ | rawString _ _ _ | character _ | number _ | other _ =>
    inferInstanceAs (Decidable False)

instance (lexeme : Lexeme) (rest : List Char) : Decidable (lexeme.HidesCall rest) :=
  match lexeme with
  | lifetime _ => inferInstanceAs (Decidable (_ ∧ _))
  | capture _ _ | textCall | word _ | string _ | rawString _ _ _ | character _ | number _
  | other _ => inferInstanceAs (Decidable False)

instance (lexeme : Lexeme) (rest : List Char) : Decidable (lexeme.HidesRawString rest) :=
  match lexeme with
  | lifetime _ => inferInstanceAs (Decidable (_ ∧ _))
  | capture _ _ | textCall | word _ | string _ | rawString _ _ _ | character _ | number _
  | other _ => inferInstanceAs (Decidable False)

end Lexeme

/-- What can be decided for each lexeme can be decided everywhere. -/
def decideEverywhere {holds : Lexeme → List Char → Prop}
    [∀ lexeme rest, Decidable (holds lexeme rest)] :
    (lexemes : List Lexeme) → Decidable (Everywhere holds lexemes)
  | [] => isTrue trivial
  | lexeme :: lexemes =>
    have : Decidable (Everywhere holds lexemes) := decideEverywhere lexemes
    inferInstanceAs (Decidable (holds lexeme (printLexemes lexemes) ∧ Everywhere holds lexemes))

instance {holds : Lexeme → List Char → Prop} [∀ lexeme rest, Decidable (holds lexeme rest)]
    (lexemes : List Lexeme) : Decidable (Everywhere holds lexemes) :=
  decideEverywhere lexemes

end Peg.Host
