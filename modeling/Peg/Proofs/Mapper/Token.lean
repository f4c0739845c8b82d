/-
Peg/Proofs/Mapper/Token.lean

The tokens of mapper expressions, as they are read.

Blanks are skipped before a token is looked for, so everything a reader does
is decided by the text without the blanks at its start.  For symbols, strings
and variables there is one lemma in each direction: the written form, before a
text that cannot continue it, is read to its end, and whatever is read has
that form.
-/
import Peg.Proofs.Grammar.Escape
import Peg.Proofs.Mapper.Grammar
import Peg.Proofs.Text.Split

namespace Peg.MapperExpr

open Text

variable {blanks cs token rest : List Char} {symbol : Char}

/-! ### Blanks -/

theorem Blanks.append {blanks' : List Char} (h : Blanks blanks) (h' : Blanks blanks') :
    Blanks (blanks ++ blanks') := by
  intro c hc
  rcases List.mem_append.1 hc with hc | hc
  · exact h c hc
  · exact h' c hc

theorem blanks_nil : Blanks [] := nofun

/-- More blanks in front do not matter. -/
theorem trimStart_blanks (h : Blanks blanks) (cs : List Char) :
    trimStart (blanks ++ cs) = trimStart cs :=
  List.dropWhile_append_of_pos h

/-- There is nothing to trim in front of another character. -/
theorem trimStart_cons {c : Char} (hc : isBlank c = false) (cs : List Char) :
    trimStart (c :: cs) = c :: cs :=
  List.dropWhile_cons_of_neg (by simp [hc])

/-- What is left does not begin with a blank. -/
theorem head?_trimStart (cs : List Char) : ∀ c ∈ (trimStart cs).head?, isBlank c = false :=
  head?_dropWhile isBlank cs

@[simp] theorem trimStart_trimStart (cs : List Char) : trimStart (trimStart cs) = trimStart cs :=
  dropWhile_of_head? (head?_trimStart cs)

/-- Trimming takes blanks away and nothing else. -/
theorem exists_blanks (cs : List Char) : ∃ blanks, Blanks blanks ∧ cs = blanks ++ trimStart cs :=
  ⟨cs.takeWhile isBlank, fun _ hc => List.mem_takeWhile_imp hc,
    (List.takeWhile_append_dropWhile ..).symm⟩

theorem trimStart_suffix (cs : List Char) : trimStart cs <:+ cs :=
  List.dropWhile_suffix isBlank

/-! ### Symbols -/

/-- More blanks may stand before a token. -/
theorem Spaced.of_blanks (hblanks : Blanks blanks) (h : Spaced token cs) :
    Spaced token (blanks ++ cs) := by
  obtain ⟨blanks', hblanks', rfl⟩ := h
  exact ⟨blanks ++ blanks', hblanks.append hblanks', by rw [List.append_assoc]⟩

/-- A token with blanks before it begins the text, once these are trimmed. -/
theorem Spaced.trimStart_append {c : Char} (hc : isBlank c = false) (h : Spaced (c :: token) cs)
    (rest : List Char) : trimStart (cs ++ rest) = c :: (token ++ rest) := by
  obtain ⟨blanks, hblanks, rfl⟩ := h
  rw [List.append_assoc, trimStart_blanks hblanks, List.cons_append, trimStart_cons hc]

theorem Spaced.length_le (h : Spaced token cs) : token.length ≤ cs.length := by
  obtain ⟨blanks, -, rfl⟩ := h
  simp

/-- A symbol that is next is taken. -/
theorem eat_of_trimStart (h : trimStart cs = symbol :: rest) : eat symbol cs = (true, rest) := by
  simp [eat, h]

/-- So is one that is written with blanks before it. -/
theorem Spaced.eat_append (hsymbol : isBlank symbol = false) (h : Spaced [symbol] cs)
    (rest : List Char) : eat symbol (cs ++ rest) = (true, rest) :=
  eat_of_trimStart (h.trimStart_append hsymbol rest)

/-- Another symbol is left, without the blanks before it. -/
theorem eat_other (h : ∀ c ∈ (trimStart cs).head?, c ≠ symbol) :
    eat symbol cs = (false, trimStart cs) := by
  rw [eat]
  split
  · rename_i c cs' heq
    rw [if_neg (h c (by simp [heq])), heq]
  · rename_i heq
    rw [heq]

/-- The blanks before a symbol are skipped in any case. -/
theorem eat_trimStart (symbol : Char) (cs : List Char) :
    eat symbol (trimStart cs) = eat symbol cs := by
  rw [eat, eat, trimStart_trimStart]

/-- A symbol that is found stands at the start, after blanks. -/
theorem spaced_of_eat (h : eat symbol cs = (true, rest)) :
    ∃ opening, Spaced [symbol] opening ∧ cs = opening ++ rest := by
  obtain ⟨blanks, hblanks, hcs⟩ := exists_blanks cs
  rw [eat] at h
  split at h
  · rename_i c cs' heq
    split at h
    · rename_i hc
      cases h
      refine ⟨blanks ++ [symbol], ⟨blanks, hblanks, rfl⟩, ?_⟩
      rw [heq, hc] at hcs
      rw [hcs, List.append_assoc, List.singleton_append]
    · cases h
  · cases h

theorem rest_of_eat (h : eat symbol cs = (false, rest)) : rest = trimStart cs := by
  rw [eat] at h
  split at h
  · split at h
    · cases h
    · cases h
      symm
      assumption
  · cases h
    symm
    assumption

/-! ### Strings -/

section

variable {quote : Char} {inner text : List Char}

theorem readString_quote (quote : Char) (cs : List Char) :
    readString quote (quote :: cs) = some ([], cs) := by
  rw [readString.eq_def]
  exact if_pos rfl

/-- A plain character stands for itself. -/
theorem readString_plain {c : Char} (hquote : c ≠ quote) (hbackslash : c ≠ '\\')
    (cs : List Char) : readString quote (c :: cs) =
      (readString quote cs).map fun (inner, rest) => (c :: inner, rest) := by
  rw [readString.eq_def]
  exact (if_neg hquote).trans (if_neg hbackslash)

/-- A backslash takes the next character along, the quote too. -/
theorem readString_escaped (hquote : quote ≠ '\\') (c : Char) (cs : List Char) :
    readString quote ('\\' :: c :: cs) =
      (readString quote cs).map fun (inner, rest) => (escapedChar c :: inner, rest) := by
  rw [readString.eq_def]
  exact if_neg hquote.symm

/-- All but three escaped characters stand for themselves. -/
theorem escapedChar_other {c : Char} (hfeed : c ≠ 'n') (htab : c ≠ 't') (hreturn : c ≠ 'r') :
    escapedChar c = c := by
  rw [escapedChar.eq_def]
  split <;> simp_all

/-- What stands between quotes is read as the text it stands for, up to the quote that is not
escaped. -/
theorem readString_of_spells (hquote : quote ≠ '\\') (h : Spells quote inner text)
    (rest : List Char) : readString quote (inner ++ quote :: rest) = some (text, rest) := by
  induction h with
  | nil => exact readString_quote quote rest
  | plain hc hbackslash h ih =>
    rw [List.cons_append, readString_plain hc hbackslash, ih]
    rfl
  | lineFeed h ih | tab h ih | carriageReturn h ih =>
    rw [List.cons_append, List.cons_append, readString_escaped hquote, ih]
    rfl
  | itself hfeed htab hreturn h ih =>
    rw [List.cons_append, List.cons_append, readString_escaped hquote, ih,
      escapedChar_other hfeed htab hreturn]
    rfl

/-- An escape spells the character that it stands for. -/
theorem spells_escaped (c : Char) (h : Spells quote inner text) :
    Spells quote ('\\' :: c :: inner) (escapedChar c :: text) := by
  rw [escapedChar.eq_def]
  split
  · exact .lineFeed h
  · exact .tab h
  · exact .carriageReturn h
  · rename_i hfeed htab hreturn
    exact .itself hfeed htab hreturn h

/-- A string that is read ends with its quote, and what is before the quote spells it. -/
theorem spells_of_readString (hquote : quote ≠ '\\') {cs : List Char}
    (h : readString quote cs = some (text, rest)) :
    ∃ inner, Spells quote inner text ∧ cs = inner ++ quote :: rest := by
  induction cs using readString.induct quote generalizing text with
  | case1 => cases h
  | case2 cs =>
    rw [readString_quote] at h
    cases h
    exact ⟨[], .nil, rfl⟩
  | case3 =>
    rw [readString.eq_def] at h
    exact absurd ((if_neg hquote.symm).symm.trans h) nofun
  | case4 c cs _ ih =>
    rw [readString_escaped hquote] at h
    obtain ⟨⟨text', rest'⟩, hread, heq⟩ := Option.map_eq_some_iff.1 h
    cases heq
    obtain ⟨inner, hinner, rfl⟩ := ih hread
    exact ⟨'\\' :: c :: inner, spells_escaped c hinner, rfl⟩
  | case5 c cs hc hbackslash ih =>
    rw [readString_plain hc hbackslash] at h
    obtain ⟨⟨text', rest'⟩, hread, heq⟩ := Option.map_eq_some_iff.1 h
    cases heq
    obtain ⟨inner, hinner, rfl⟩ := ih hread
    exact ⟨c :: inner, .plain hc hbackslash hinner, rfl⟩

end

/-! ### Variables -/

/-- Digits stand for an index if their value fits a machine word. -/
theorem parseIndex?_eq_some_iff {digits : List Char} {index : Nat}
    (hdigits : ∀ c ∈ digits, c.isDigit = true) :
    Token.parseIndex? digits = some index ↔ IsIndex digits index := by
  cases digits with
  | nil => exact ⟨nofun, fun h => absurd rfl h.nonempty⟩
  | cons c cs =>
    rw [Token.parseIndex?, Token.numberOf?_digits (List.cons_ne_nil c cs) hdigits,
      Option.filter_eq_some_iff, decide_eq_true_iff, Option.some.injEq]
    constructor
    · rintro ⟨hvalue, hfits⟩
      exact ⟨List.cons_ne_nil c cs, hdigits, hvalue, hfits⟩
    · intro h
      exact ⟨h.value, h.fits⟩

/-- A digit is not a letter, so the letters after the dollar sign end before the index. -/
theorem isAlpha_of_isDigit {c : Char} (h : c.isDigit = true) : c.isAlpha = false := by
  have hdigit : 48 ≤ c.toNat ∧ c.toNat ≤ 57 := by
    rw [Char.isDigit, Bool.and_eq_true, decide_eq_true_iff, decide_eq_true_iff] at h
    exact h
  rw [Meta.isAlpha_eq, Bool.or_eq_false_iff, Bool.and_eq_false_iff, decide_eq_false_iff_not,
    decide_eq_false_iff_not]
  constructor
  · rintro ⟨hupper, -⟩
    have : 65 ≤ c.toNat := hupper
    omega
  · left
    intro hlower
    have : 97 ≤ c.toNat := hlower
    omega

/-- The words that may stand between the dollar sign and the index, and what they ask for. -/
def variableOf? (letters : List Char) : Option (Nat → MapperExpr) :=
  match String.ofList letters with
  | "" => some .capture
  | "start" => some .startOf
  | "end" => some .endOf
  | _ => none

/-- A variable is read in two parts, letters and digits. -/
theorem readVariable_eq (cs : List Char) : readVariable cs =
    let letters := cs.takeWhile (·.isAlpha)
    let numbered := cs.drop letters.length
    match variableOf? letters with
    | none => .error (.missingIndex, numbered)
    | some make =>
      let digits := numbered.takeWhile (·.isDigit)
      match Token.parseIndex? digits with
      | some index => .ok (make index, numbered.drop digits.length)
      | none => .error (.missingIndex, numbered.drop digits.length) := rfl

/-- Written with a known word and an index, it is a term. -/
theorem isTerm_variable {letters digits : List Char} {make : Nat → MapperExpr} {index : Nat}
    (hmake : variableOf? letters = some make) (hindex : IsIndex digits index)
    (h : Spaced ('$' :: (letters ++ digits)) cs) : IsTerm cs (make index) := by
  have htoList : ∀ {word : String}, String.ofList letters = word → letters = word.toList := by
    rintro _ rfl
    rw [String.toList_ofList]
  unfold variableOf? at hmake
  split at hmake
  · rename_i hword
    obtain rfl := htoList hword
    cases hmake
    exact .capture hindex h
  · rename_i hword
    obtain rfl := htoList hword
    cases hmake
    exact .startOf hindex h
  · rename_i hword
    obtain rfl := htoList hword
    cases hmake
    exact .endOf hindex h
  · cases hmake

/-- A variable is read up to its last digit. -/
theorem readVariable_of_isIndex {letters digits : List Char} {make : Nat → MapperExpr} {index : Nat}
    (hletters : ∀ c ∈ letters, c.isAlpha = true) (hmake : variableOf? letters = some make)
    (hindex : IsIndex digits index) (hrest : ∀ c ∈ rest.head?, c.isDigit = false) :
    readVariable (letters ++ (digits ++ rest)) = .ok (make index, rest) := by
  have hdigit : ∀ c ∈ (digits ++ rest).head?, c.isAlpha = false := by
    rcases digits with - | ⟨d, digits⟩
    · exact absurd rfl hindex.nonempty
    · intro c hc
      cases hc
      exact isAlpha_of_isDigit (hindex.decimal d (List.mem_cons_self ..))
  have hword := takeWhile_append_of_head? hletters hdigit
  have hnumber := takeWhile_append_of_head? hindex.decimal hrest
  have hvalue := (parseIndex?_eq_some_iff hindex.decimal).2 hindex
  simp only [readVariable_eq, hword, hmake, List.drop_left, hnumber, hvalue]

/-- What is read as a variable is one of the three words and an index. -/
theorem variable_of_readVariable {expr : MapperExpr} (h : readVariable cs = .ok (expr, rest)) :
    ∃ letters digits make index, variableOf? letters = some make ∧ IsIndex digits index ∧
      expr = make index ∧ cs = letters ++ (digits ++ rest) := by
  rw [readVariable_eq] at h
  dsimp only at h
  have hletters := List.prefix_iff_eq_append.1 (List.takeWhile_prefix (·.isAlpha) (l := cs))
  generalize cs.takeWhile (·.isAlpha) = letters at h hletters
  generalize cs.drop letters.length = numbered at h hletters
  subst hletters
  split at h
  · cases h
  · rename_i make hmake
    have hdigits : ∀ c ∈ numbered.takeWhile (·.isDigit), c.isDigit = true :=
      fun _ hc => List.mem_takeWhile_imp hc
    have hnumber := List.prefix_iff_eq_append.1 (List.takeWhile_prefix (·.isDigit) (l := numbered))
    generalize numbered.takeWhile (·.isDigit) = digits at h hdigits hnumber
    split at h
    · rename_i index hindex
      cases h
      exact ⟨letters, digits, make, index, hmake, (parseIndex?_eq_some_iff hdigits).1 hindex, rfl,
        by rw [hnumber]⟩
    · cases h

/-- The error of a variable is at an end of the text. -/
theorem suffix_of_readVariable {mistake : Mistake} (h : readVariable cs = .error (mistake, rest)) :
    rest <:+ cs := by
  rw [readVariable_eq] at h
  dsimp only at h
  split at h
  · cases h
    exact List.drop_suffix ..
  · split at h
    · cases h
    · cases h
      exact (List.drop_suffix ..).trans (List.drop_suffix ..)

end Peg.MapperExpr
