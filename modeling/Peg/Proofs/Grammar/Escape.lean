/-
Peg/Proofs/Grammar/Escape.lean

The written forms of tokens and the texts they stand for.

For each kind of token the encoder gives a word that the regular expression of
the token reads, and the decoder undoes the encoder.  In the other direction,
whatever the regular expression of a regular expression reads decodes to a
source that can be written.
-/
import Peg.Proofs.Grammar.Printable
import Peg.Proofs.Grammar.Token

namespace Peg

open Text Regex

/-! ### Identifiers -/

/-- Identifiers are what the token for them reads. -/
theorem isIdentifier_iff {name : String} : IsIdentifier name ↔
    ∃ c cs, name.toList = c :: cs ∧ Meta.idStartSet.contains c = true ∧ Meta.idSet.Covers cs := by
  simp only [IsIdentifier, CharSet.Covers, Meta.contains_idStartSet, Meta.contains_idSet]

namespace Token

/-! ### Literals -/

theorem resolveEscapes_cons {c : Char} (hc : c ≠ '\\') (cs : List Char) :
    resolveEscapes (c :: cs) = c :: resolveEscapes cs := by
  rw [resolveEscapes.eq_def]
  split <;> simp_all

/-- Escaping a text is undone, character by character. -/
theorem resolveEscapes_flatMap (cs : List Char) : resolveEscapes (cs.flatMap escapeChar) = cs := by
  induction cs with
  | nil => rfl
  | cons c cs ih =>
    rw [List.flatMap_cons, escapeChar.eq_def]
    split
    · exact congrArg _ ih
    · exact congrArg _ ih
    · exact congrArg _ ih
    · exact congrArg _ ih
    · exact congrArg _ ih
    · rename_i hbackslash _ _ _
      rw [List.singleton_append, resolveEscapes_cons hbackslash, ih]

/-- The quotes around a text are taken off. -/
theorem unquote_quoted (inner : List Char) : unquote ('\'' :: (inner ++ ['\''])) = inner := by
  rw [unquote, List.getLast?_concat, if_pos rfl, List.dropLast_concat]

/-- Literals are decoded to what was encoded, whatever their text. -/
theorem decodeLiteral_encodeLiteral (string : String) :
    decodeLiteral (encodeLiteral string) = string := by
  rw [decodeLiteral, encodeLiteral, String.toList_ofList, List.cons_append, unquote_quoted,
    resolveEscapes_flatMap, String.ofList_toList]

/-- An escaped text has no quote of its own, and its backslashes are in pairs. -/
theorem escaped_flatMap (cs : List Char) :
    Meta.Escaped Meta.literalSet (cs.flatMap escapeChar) := by
  induction cs with
  | nil => exact .nil
  | cons c cs ih =>
    rw [List.flatMap_cons, escapeChar.eq_def]
    split
    · exact .pair (by decide) ih
    · exact .pair (by decide) ih
    · exact .pair (by decide) ih
    · exact .pair (by decide) ih
    · exact .pair (by decide) ih
    · rename_i hquote hbackslash _ _ _
      refine .plain ?_ ih
      simp only [Meta.literalSet, CharSet.contains_compl, CharSet.contains_union,
        CharSet.contains_single, Bool.not_eq_true', Bool.or_eq_false_iff, beq_eq_false_iff_ne]
      exact ⟨hquote, hbackslash⟩

/-! ### Regular expressions -/

/-- Most characters of a source are left as they are. -/
theorem escapeSlashes_cons {c : Char} (hbackslash : c ≠ '\\') (hslash : c ≠ '/') (hline : c ≠ '\n')
    (cs : List Char) : escapeSlashes (c :: cs) = c :: escapeSlashes cs := by
  rw [escapeSlashes.eq_def]
  split <;> simp_all

theorem plainSlashes_cons {c : Char} (hc : c ≠ '\\') (cs : List Char) :
    plainSlashes (c :: cs) = c :: plainSlashes cs := by
  rw [plainSlashes.eq_def]
  split <;> simp_all

/-- What may stand without a backslash in a regular expression. -/
theorem contains_regexSet {c : Char} :
    Meta.regexSet.contains c = true ↔ c ≠ '/' ∧ c ≠ '\\' ∧ c ≠ '\n' := by
  simp [Meta.regexSet, and_assoc]

variable {source flags : List Char}

/-- A source that can be printed comes back from the text between slashes. -/
theorem plainSlashes_escapeSlashes (h : RegexSource source) :
    plainSlashes (escapeSlashes source) = source := by
  induction h with
  | nil => rfl
  | plain hbackslash hline h ih =>
    rename_i c cs
    by_cases hslash : c = '/'
    · rw [hslash]
      exact congrArg _ ih
    · rw [escapeSlashes_cons hbackslash hslash hline, plainSlashes_cons hbackslash, ih]
  | pair hslash hline h ih =>
    rw [escapeSlashes, plainSlashes, if_neg hslash, ih]

/-- There is no slash in that text without a backslash before it. -/
theorem escaped_escapeSlashes (h : RegexSource source) :
    Meta.Escaped Meta.regexSet (escapeSlashes source) := by
  induction h with
  | nil => exact .nil
  | plain hbackslash hline h ih =>
    rename_i c cs
    by_cases hslash : c = '/'
    · rw [hslash]
      exact .pair (by decide) ih
    · rw [escapeSlashes_cons hbackslash hslash hline]
      exact .plain (contains_regexSet.2 ⟨hslash, hbackslash, hline⟩) ih
  | pair hslash hline h ih =>
    rw [escapeSlashes]
    exact .pair hline ih

/-- Without its escaped slashes a token is a source that can be written. -/
theorem regexSource_plainSlashes (h : Meta.Escaped Meta.regexSet source) :
    RegexSource (plainSlashes source) := by
  induction h with
  | nil => exact .nil
  | plain hc h ih =>
    obtain ⟨hslash, hbackslash, hline⟩ := contains_regexSet.1 hc
    rw [plainSlashes_cons hbackslash]
    exact .plain hbackslash hline ih
  | pair hline h ih =>
    rename_i c cs
    rw [plainSlashes]
    split
    · exact .plain (by decide) (by decide) ih
    · rename_i hslash
      exact .pair hslash hline ih

/-- The last slash is the one before the flags. -/
theorem cutAtLast_append {separator : Char} (hafter : separator ∉ flags) :
    cutAtLast separator (source ++ separator :: flags) = some (source, flags) := by
  have htake : ((source ++ separator :: flags).reverse.takeWhile (· != separator)).reverse =
      flags := by
    rw [List.reverse_append, List.reverse_cons, List.append_assoc, List.takeWhile_append_of_pos]
    · rw [List.singleton_append, List.takeWhile_cons_of_neg (by simp), List.append_nil,
        List.reverse_reverse]
    · intro c hc
      rw [bne_iff_ne]
      rintro rfl
      exact hafter (List.mem_reverse.1 hc)
  have hlength : (source ++ separator :: flags).length - flags.length - 1 = source.length := by
    simp only [List.length_append, List.length_cons]
    omega
  simp only [cutAtLast, htake]
  rw [if_pos (by simp; omega), hlength, List.take_left]

/-- A regular expression decodes to its source and its flags. -/
theorem decodeRegex_of_flags (hflags : '/' ∉ flags) :
    decodeRegex (String.ofList ('/' :: (source ++ '/' :: flags))) =
      (String.ofList (plainSlashes source), String.ofList flags) := by
  simp only [decodeRegex, String.toList_ofList, cutAtLast_append hflags]

/-- Flags hold no slash. -/
theorem not_mem_flags (h : RegexFlags flags) : '/' ∉ flags := by
  intro hmem
  rcases h _ hmem with h | h
  · exact absurd h (by decide)
  · exact absurd h (by decide)

theorem covers_flags_iff : Meta.flagSet.Covers flags ↔ RegexFlags flags := by
  simp [CharSet.Covers, RegexFlags, Meta.flagSet]

/-- So what was encoded comes back. -/
theorem decodeRegex_encodeRegex {source flags : String} (hsource : RegexSource source.toList)
    (hflags : RegexFlags flags.toList) :
    decodeRegex (encodeRegex source flags) = (source, flags) := by
  rw [encodeRegex, List.cons_append, decodeRegex_of_flags (not_mem_flags hflags),
    plainSlashes_escapeSlashes hsource, String.ofList_toList, String.ofList_toList]

/-! ### Variables -/

theorem hexDigit?_of_isDigit {c : Char} (h : c.isDigit = true) :
    hexDigit? c = some (c.toNat - '0'.toNat) := by
  rw [hexDigit?, if_pos h]

/-- The value of a digit is less than ten. -/
theorem isDigit_sub_lt {c : Char} (h : c.isDigit = true) : c.toNat - '0'.toNat < 10 := by
  rw [Char.isDigit, Bool.and_eq_true, decide_eq_true_iff, decide_eq_true_iff] at h
  have hle : c.toNat ≤ '9'.toNat := h.2
  have hnine : '9'.toNat = 57 := rfl
  have hzero : '0'.toNat = 48 := rfl
  omega

/-- The value of decimal digits is the number they stand for. -/
theorem foldlM_digits {digits : List Char} (h : ∀ c ∈ digits, c.isDigit = true) (value : Nat) :
    digits.foldlM (fun value c => do
      let digit ← hexDigit? c
      if digit < 10 then some (value * 10 + digit) else none) value =
    some (Nat.ofDigitChars 10 digits value) := by
  induction digits generalizing value with
  | nil => simp
  | cons c digits ih =>
    obtain ⟨hc, hdigits⟩ := List.forall_mem_cons.1 h
    rw [List.foldlM_cons, hexDigit?_of_isDigit hc]
    simp only [Option.bind_eq_bind, Option.bind_some, if_pos (isDigit_sub_lt hc)]
    rw [← Option.bind_eq_bind, ih hdigits, Nat.ofDigitChars_cons, Nat.mul_comm value]

/-- A number with these digits, as the library counts it. -/
theorem numberOf?_digits {digits : List Char} (hne : digits ≠ [])
    (h : ∀ c ∈ digits, c.isDigit = true) :
    numberOf? 10 digits = some (Nat.ofDigitChars 10 digits 0) := by
  cases digits with
  | nil => exact absurd rfl hne
  | cons c cs => exact foldlM_digits h 0

/-- Writing a number in decimal is undone. -/
theorem numberOf?_toDigits (n : Nat) : numberOf? 10 (Nat.toDigits 10 n) = some n := by
  have hdigits : ∀ c ∈ Nat.toDigits 10 n, c.isDigit = true := fun c hc =>
    Nat.isDigit_of_mem_toDigits (by decide) (by decide) hc
  have hfold := foldlM_digits hdigits 0
  rw [Nat.ofDigitChars_toDigits (by decide) (by decide)] at hfold
  rcases htoDigits : Nat.toDigits 10 n with - | ⟨c, cs⟩
  · exact absurd htoDigits Nat.toDigits_ne_nil
  · rw [htoDigits] at hfold
    exact hfold

/-- A variable is a dollar sign and its index. -/
theorem toList_encodeVariable (index : Nat) :
    (encodeVariable index).toList = '$' :: Nat.toDigits 10 index := by
  rw [encodeVariable, String.toList_append]
  show _ ++ index.repr.toList = _
  rw [Nat.toList_repr]
  rfl

theorem covers_toDigits (index : Nat) : Meta.digitSet.Covers (Nat.toDigits 10 index) :=
  fun _ hc => Nat.isDigit_of_mem_toDigits (by decide) (by decide) hc

/-- A variable comes back, if its index can be held. -/
theorem decodeVariable?_encodeVariable {index : Nat} (h : index < UInt64.size) :
    decodeVariable? (encodeVariable index) = some index := by
  rw [decodeVariable?, toList_encodeVariable]
  have hparse : parseIndex? (Nat.toDigits 10 index) = some index := by
    rw [parseIndex?, numberOf?_toDigits, Option.filter_some, if_pos (decide_eq_true h)]
  rcases hdigits : Nat.toDigits 10 index with - | ⟨c, cs⟩
  · exact absurd hdigits Nat.toDigits_ne_nil
  · have hplus : c ≠ '+' := by
      rintro rfl
      have hmem : '+' ∈ Nat.toDigits 10 index := by
        rw [hdigits]
        exact List.mem_cons_self ..
      exact absurd (covers_toDigits index _ hmem) (by decide)
    rw [← hparse, hdigits]
    split <;> simp_all

/-- Indexes that are read are machine words. -/
theorem lt_of_decodeVariable? {token : String} {index : Nat}
    (h : decodeVariable? token = some index) : index < UInt64.size := by
  have hparse : ∀ {digits : List Char}, parseIndex? digits = some index → index < UInt64.size := by
    intro digits hdigits
    rw [parseIndex?, Option.filter_eq_some_iff] at hdigits
    exact of_decide_eq_true hdigits.2
  rw [decodeVariable?] at h
  split at h
  · exact hparse h
  · exact hparse h
  · cases h

end Token

end Peg
