/-
Peg/Proofs/Host/Substitution.lean

Variables are replaced in mappers, and nothing else is.

The scan takes a text apart as it was put together: at the beginning of a
lexeme that the text after it does not extend, it passes that lexeme, writes
its replacement and is at the beginning of the next one (`Passes`).  Some
lexemes take several steps.  Digits and other characters are passed one by one,
and a lifetime is passed as a quote and a word.

The last of these is where the scan goes wrong.  Without its quote the name of
a lifetime is any word, so `'text` before `()` has its name replaced:

    the scan replaces the lexemes   iff   no lifetime hides the call
-/
import Peg.Proofs.Host.Lexeme
import Peg.Proofs.Text.Offset
import Peg.Proofs.Text.Split

namespace Peg.Host

open Text

variable {c : Char} {cs rest : List Char}

/-! ### Characters -/

/-- The characters that begin literals and variables are in no word. -/
theorem continuesWord_symbol :
    ∀ c ∈ ['"', '\'', '$', '\\', '#', '('], continuesWord c = false := by
  have hall : ['"', '\'', '$', '\\', '#', '('].all (fun c => !continuesWord c) = true := by
    decide +kernel
  intro c hc
  simpa using List.all_eq_true.1 hall c hc

theorem continuesWord_of_startsWord (h : startsWord c = true) : continuesWord c = true := by
  rw [startsWord, Bool.or_eq_true] at h
  rw [continuesWord, isAlphanumeric, Bool.or_eq_true, Bool.or_eq_true]
  exact h.imp_left .inl

theorem inRanges_of_lt {low high : Nat} {others : List (Nat × Nat)} (h : c.toNat < low) :
    inRanges ((low, high) :: others) c = false :=
  if_pos h

/-- Digits begin no word, since no letter comes before them. -/
theorem startsWord_of_isDigit (h : c.isDigit = true) : startsWord c = false := by
  have hdigit : 48 ≤ c.toNat ∧ c.toNat ≤ 57 := by
    rw [Char.isDigit, Bool.and_eq_true, decide_eq_true_iff, decide_eq_true_iff] at h
    exact h
  have hbefore : c.toNat < 0x41 := by omega
  have hletters : inRanges letters c = false := inRanges_of_lt hbefore
  have hnumbers : inRanges letterNumbers c = false := inRanges_of_lt (by omega)
  have hsymbols : inRanges alphabeticSymbols c = false := inRanges_of_lt (by omega)
  have hmarks : inRanges alphabeticMarks c = false := inRanges_of_lt (by omega)
  have hunderscore : c ≠ '_' := by
    rintro rfl
    exact absurd hdigit.2 (by decide)
  rw [startsWord, isAlphabetic, hletters, hnumbers, hsymbols, hmarks]
  simpa using hunderscore

/-- A character that begins neither a literal nor a variable nor a word is copied. -/
theorem substituteLexeme_other (hsymbol : c ≠ '"' ∧ c ≠ '\'' ∧ c ≠ '$')
    (hword : startsWord c = false) (cs : List Char) : substituteLexeme c cs = ([c], cs) := by
  rw [substituteLexeme, if_neg hsymbol.1, if_neg hsymbol.2.1, if_neg hsymbol.2.2,
    if_neg (by simp [hword])]

/-! ### Literals -/

/-- A quoted text ends with the quote that is not escaped. -/
theorem splitQuoted_of_isQuoted {quote : Char} (hquote : quote ≠ '\\') {body : List Char}
    (h : IsQuoted quote body) (rest : List Char) :
    splitQuoted quote (body ++ quote :: rest) = (body ++ [quote], rest) := by
  induction h with
  | nil => rw [List.nil_append, List.nil_append, splitQuoted.eq_def]; simp [hquote]
  | plain hc hbackslash h ih =>
    rw [List.cons_append, splitQuoted.eq_def]
    simp [hc, hbackslash, ih]
  | escaped c h ih =>
    rw [List.cons_append, List.cons_append, splitQuoted.eq_def]
    simp [ih]

/-- Text without the closing does not come to contain it where the closing is put after it. -/
theorem after?_rawClosing {hashes : Nat} {body : List Char} (hbody : ¬rawClosing hashes <:+: body)
    (hne : body ≠ []) (rest : List Char) :
    after? (rawClosing hashes) (body ++ (rawClosing hashes ++ rest)) = none := by
  rw [Option.eq_none_iff_forall_ne_some]
  intro later hlater
  have hclosing := after?_eq_some_iff.1 hlater
  have hprefix : rawClosing hashes <+: body ++ (rawClosing hashes ++ rest) := ⟨later, hclosing.symm⟩
  rcases List.prefix_or_prefix_of_prefix hprefix (List.prefix_append body _) with hin | hover
  · exact hbody hin.isInfix
  · -- the body would be the beginning of the closing, which goes on with hashes and no quote
    obtain ⟨closing, hover⟩ := hover
    have hagain : body ++ (rawClosing hashes ++ rest) = body ++ (closing ++ later) := by
      rw [hclosing, ← List.append_assoc, hover]
    have hagain := List.append_cancel_left hagain
    cases closing with
    | nil =>
      rw [List.append_nil] at hover
      exact hbody (hover ▸ List.infix_rfl)
    | cons d closing =>
      obtain rfl : '"' = d := (List.cons.inj hagain).1
      obtain ⟨b, body, rfl⟩ := List.exists_cons_of_ne_nil hne
      have hmem : '"' ∈ List.replicate hashes '#' := by
        rw [← (List.cons.inj hover).2]
        exact List.mem_append_right _ (List.mem_cons_self ..)
      exact absurd (List.eq_of_mem_replicate hmem) (by decide)

/-- A raw string ends with the first closing. -/
theorem splitAfter_rawClosing {hashes : Nat} {body : List Char}
    (hbody : ¬rawClosing hashes <:+: body) (rest : List Char) :
    splitAfter (rawClosing hashes) (body ++ (rawClosing hashes ++ rest)) =
      (body ++ rawClosing hashes, rest) := by
  induction body with
  | nil =>
    have hfound : after? (rawClosing hashes) (rawClosing hashes ++ rest) = some rest :=
      after?_eq_some_iff.2 rfl
    rw [List.nil_append, List.nil_append]
    rw [rawClosing, List.cons_append] at hfound ⊢
    rw [splitAfter, hfound]
  | cons b body ih =>
    have hnone := after?_rawClosing hbody (List.cons_ne_nil b body) rest
    have hbody : ¬rawClosing hashes <:+: body := fun h =>
      hbody (h.trans (List.suffix_cons b body).isInfix)
    rw [List.cons_append] at hnone ⊢
    rw [splitAfter, hnone, ih hbody]
    rfl

theorem splitRawString_of_body {hashes : Nat} {body : List Char}
    (hbody : ¬rawClosing hashes <:+: body) (rest : List Char) :
    splitRawString (List.replicate hashes '#' ++ '"' :: (body ++ (rawClosing hashes ++ rest))) =
      (List.replicate hashes '#' ++ '"' :: (body ++ rawClosing hashes), rest) := by
  have hrun : ∀ c ∈ List.replicate hashes '#', (c == '#') = true := by
    intro c hc
    rw [List.eq_of_mem_replicate hc]
    rfl
  have hquote : ∀ c ∈ ('"' :: (body ++ (rawClosing hashes ++ rest))).head?, (c == '#') = false := by
    rintro _ ⟨⟩
    rfl
  have hsplit : splitAfter ('"' :: List.replicate hashes '#')
      (body ++ (rawClosing hashes ++ rest)) = (body ++ rawClosing hashes, rest) :=
    splitAfter_rawClosing hbody rest
  rw [splitRawString, takeWhile_append_of_head? hrun hquote, List.drop_left]
  simp only [hsplit]

/-- Without a quote there is no raw string. -/
theorem splitRawString_of_not_opensRaw (h : ¬OpensRaw rest) : splitRawString rest = ([], rest) := by
  rw [splitRawString]
  split
  · rename_i body hbody
    rw [opensRaw_iff, ← drop_length_takeWhile, hbody] at h
    exact absurd rfl h
  · rfl

/-! ### Words -/

theorem substituteLexeme_word {name : List Char} (hname : IsWord name)
    (hrest : ∀ c ∈ rest.head?, continuesWord c = false) :
    ∃ c cs, name = c :: cs ∧ substituteLexeme c (cs ++ rest) = substituteWord name rest := by
  obtain ⟨c, cs, rfl, hstart, hcs⟩ := hname
  have hsymbol : ∀ symbol ∈ ['"', '\'', '$', '\\', '#', '('], c ≠ symbol := by
    rintro symbol hsymbol rfl
    have hnone := continuesWord_symbol c hsymbol
    rw [continuesWord_of_startsWord hstart] at hnone
    cases hnone
  refine ⟨c, cs, rfl, ?_⟩
  rw [substituteLexeme, if_neg (hsymbol _ (by decide)), if_neg (hsymbol _ (by decide)),
    if_neg (hsymbol _ (by decide)), if_pos hstart, takeWhile_append_of_head? hcs hrest,
    dropWhile_append_of_head? hcs hrest]

theorem substituteWord_call (rest : List Char) :
    substituteWord "text".toList ('(' :: ')' :: rest) = (matchedTextCall, rest) := rfl

theorem substituteWord_marker {marker : List Char} (hmarker : IsMarker marker) (rest : List Char) :
    substituteWord marker rest = (marker ++ (splitRawString rest).1, (splitRawString rest).2) := by
  rcases hmarker with rfl | rfl
  · rfl
  · rfl

/-- A word is copied if the text after it makes neither the call nor a raw string of it. -/
theorem substituteWord_self {name : List Char}
    (hcall : ¬(name = "text".toList ∧ "()".toList <+: rest))
    (hraw : ¬(IsMarker name ∧ OpensRaw rest)) : substituteWord name rest = (name, rest) := by
  by_cases hmarker : IsMarker name
  · have hnone := splitRawString_of_not_opensRaw fun hopens => hraw ⟨hmarker, hopens⟩
    rw [substituteWord_marker hmarker, hnone, List.append_nil]
  · have htoList : ∀ {word : String}, String.ofList name = word → name = word.toList := by
      rintro _ rfl
      rw [String.toList_ofList]
    rw [substituteWord.eq_def]
    split
    · rename_i later heq
      exact absurd ⟨htoList heq, later, rfl⟩ hcall
    · rename_i heq
      exact absurd (.inl (htoList heq)) hmarker
    · rename_i heq
      exact absurd (.inr (htoList heq)) hmarker
    · rfl

/-! ### Steps of the scan -/

/-- The scan passes what is read and writes something for it. -/
def Passes (read written rest : List Char) : Prop :=
  ∀ fuel, (read ++ rest).length ≤ fuel → ∃ left, rest.length ≤ left ∧
    substituteAll fuel (read ++ rest) = written ++ substituteAll left rest

theorem Passes.append {read read' written written' : List Char}
    (h : Passes read written (read' ++ rest)) (h' : Passes read' written' rest) :
    Passes (read ++ read') (written ++ written') rest := by
  intro fuel hfuel
  rw [List.append_assoc] at hfuel ⊢
  obtain ⟨middle, hmiddle, heq⟩ := h fuel hfuel
  obtain ⟨left, hleft, heq'⟩ := h' middle hmiddle
  exact ⟨left, hleft, by rw [heq, heq', List.append_assoc]⟩

theorem passes_nil (rest : List Char) : Passes [] [] rest :=
  fun fuel hfuel => ⟨fuel, hfuel, rfl⟩

/-- One step passes what it takes off the text. -/
theorem passes_of_step {written : List Char}
    (h : substituteLexeme c (cs ++ rest) = (written, rest)) : Passes (c :: cs) written rest := by
  intro fuel hfuel
  rw [List.cons_append, List.length_cons, List.length_append] at hfuel
  obtain ⟨fuel, rfl⟩ := Nat.exists_eq_add_of_le' (show 1 ≤ fuel by omega)
  refine ⟨fuel, by omega, ?_⟩
  rw [List.cons_append, substituteAll, h]

/-- Characters that are copied one by one. -/
theorem passes_run {run : List Char}
    (hrun : ∀ c ∈ run, ∀ cs, substituteLexeme c cs = ([c], cs)) (rest : List Char) :
    Passes run run rest := by
  induction run with
  | nil => exact passes_nil rest
  | cons c run ih =>
    obtain ⟨hc, hrun⟩ := List.forall_mem_cons.1 hrun
    have hstep : Passes [c] [c] (run ++ rest) := passes_of_step (hc (run ++ rest))
    exact hstep.append (ih hrun)

theorem passes_word {name written : List Char} (hname : IsWord name) {read : List Char}
    (hread : ∀ c ∈ (read ++ rest).head?, continuesWord c = false)
    (hword : substituteWord name (read ++ rest) = (written, rest)) :
    Passes (name ++ read) written rest := by
  obtain ⟨c, cs, rfl, hstep⟩ := substituteLexeme_word hname hread
  rw [hword, ← List.append_assoc] at hstep
  exact passes_of_step hstep

/-! ### Lexemes -/

theorem passes_number {run : List Char} (hrun : ∀ c ∈ run, c.isDigit = true) (rest : List Char) :
    Passes run run rest := by
  refine passes_run (fun c hc cs => ?_) rest
  have hsymbol : c ≠ '"' ∧ c ≠ '\'' ∧ c ≠ '$' := by
    refine ⟨?_, ?_, ?_⟩ <;> rintro rfl <;> exact absurd (hrun _ hc) (by decide)
  exact substituteLexeme_other hsymbol (startsWord_of_isDigit (hrun c hc)) cs

theorem passes_other {run : List Char}
    (hrun : ∀ c ∈ run, (c ≠ '"' ∧ c ≠ '\'' ∧ c ≠ '$') ∧ continuesWord c = false)
    (rest : List Char) : Passes run run rest := by
  refine passes_run (fun c hc cs => ?_) rest
  obtain ⟨hsymbol, hword⟩ := hrun c hc
  refine substituteLexeme_other hsymbol ?_ cs
  by_contra hstarts
  rw [continuesWord_of_startsWord (by simpa using hstarts)] at hword
  cases hword

theorem passes_string {body : List Char} (h : IsQuoted '"' body) (rest : List Char) :
    Passes ('"' :: (body ++ ['"'])) ('"' :: (body ++ ['"'])) rest := by
  refine passes_of_step ?_
  rw [substituteLexeme, if_pos rfl, List.append_assoc, List.singleton_append,
    splitQuoted_of_isQuoted (by decide) h]

theorem passes_rawString {marker body : List Char} {hashes : Nat} (hmarker : IsMarker marker)
    (hbody : ¬rawClosing hashes <:+: body) (rest : List Char) :
    Passes (Lexeme.rawString marker hashes body).print
      (Lexeme.rawString marker hashes body).print rest := by
  have hname : IsWord marker := by
    rcases hmarker with rfl | rfl
    · decide
    · decide
  refine passes_word hname ?_ ?_
  · intro c hc
    cases hashes with
    | zero =>
      cases hc
      exact continuesWord_symbol _ (by decide)
    | succ hashes =>
      cases hc
      exact continuesWord_symbol _ (by decide)
  · rw [substituteWord_marker hmarker, List.append_assoc, List.cons_append, List.append_assoc,
      splitRawString_of_body hbody]
    rfl

theorem passes_call (rest : List Char) : Passes "text()".toList matchedTextCall rest := by
  have hname : IsWord "text".toList := by decide
  have hparenthesis : ∀ c ∈ ("()".toList ++ rest).head?, continuesWord c = false := by
    rintro _ ⟨⟩
    exact continuesWord_symbol _ (by decide)
  have hpasses : Passes ("text".toList ++ "()".toList) matchedTextCall rest :=
    passes_word hname hparenthesis (substituteWord_call rest)
  exact hpasses

theorem passes_character {body : List Char} (h : IsCharacter body) (rest : List Char) :
    Passes ('\'' :: (body ++ ['\''])) ('\'' :: (body ++ ['\''])) rest := by
  refine passes_of_step ?_
  rw [substituteLexeme, if_neg (by decide), if_pos rfl, List.append_assoc, List.singleton_append]
  rw [IsCharacter.eq_def] at h
  split at h
  · rename_i c
    rw [List.singleton_append, splitCharLiteral.eq_def]
    split
    · rename_i heq
      exact absurd (List.cons.inj heq).1 h
    · rename_i heq
      cases heq
      rfl
    · rename_i hother
      exact absurd rfl (hother c rest)
  · obtain ⟨escape, rfl⟩ := List.head?_eq_some_iff.1 h.1
    have hsplit := splitQuoted_of_isQuoted (by decide) h.2 rest
    rw [List.cons_append] at hsplit ⊢
    rw [splitCharLiteral, hsplit]

/-- A variable is read up to its last digit. -/
theorem captureVariable?_append {kind : CaptureKind} {digits : List Char} (hne : digits ≠ [])
    (hdigits : ∀ c ∈ digits, c.isDigit = true) (hrest : ∀ c ∈ rest.head?, c.isDigit = false) :
    captureVariable? (kind.word ++ digits ++ rest) = some (kind.letter :: digits, rest) := by
  have hempty : digits.isEmpty = false := List.isEmpty_eq_false_iff.2 hne
  have hindex := takeWhile_append_of_head? hdigits hrest
  cases kind with
  | value =>
    obtain ⟨d, others, rfl⟩ := List.exists_cons_of_ne_nil hne
    have hdigit := hdigits d (List.mem_cons_self ..)
    -- a digit begins neither of the two words
    have hstart : after? "start".toList (d :: others ++ rest) = none := by
      refine if_neg ?_
      rintro rfl
      exact absurd hdigit (by decide)
    have hend : after? "end".toList (d :: others ++ rest) = none := by
      refine if_neg ?_
      rintro rfl
      exact absurd hdigit (by decide)
    simp only [captureVariable?, CaptureKind.word, List.nil_append, hstart, hend, hindex, hempty,
      List.drop_left]
    rfl
  | start =>
    have hstart : after? "start".toList ("start".toList ++ digits ++ rest) =
        some (digits ++ rest) := after?_eq_some_iff.2 (List.append_assoc ..)
    simp only [captureVariable?, CaptureKind.word, hstart, hindex, hempty, List.drop_left]
    rfl
  | stop =>
    have hstart : after? "start".toList ("end".toList ++ digits ++ rest) = none := rfl
    have hend : after? "end".toList ("end".toList ++ digits ++ rest) = some (digits ++ rest) :=
      after?_eq_some_iff.2 (List.append_assoc ..)
    simp only [captureVariable?, CaptureKind.word, hstart, hend, hindex, hempty, List.drop_left]
    rfl

theorem passes_capture {kind : CaptureKind} {digits : List Char} (hne : digits ≠ [])
    (hdigits : ∀ c ∈ digits, c.isDigit = true) (hrest : ∀ c ∈ rest.head?, c.isDigit = false) :
    Passes ('$' :: (kind.word ++ digits)) (kind.letter :: digits) rest := by
  refine passes_of_step ?_
  rw [substituteLexeme, if_neg (by decide), if_neg (by decide), if_pos rfl,
    captureVariable?_append hne hdigits hrest, Option.getD_some]

/-- The quote of a lifetime is passed alone, since no quote comes after the next character. -/
theorem passes_quote {name : List Char} (hname : IsWord name)
    (hquote : ¬(name.length = 1 ∧ rest.head? = some '\'')) :
    Passes ['\''] ['\''] (name ++ rest) := by
  refine passes_of_step ?_
  rw [substituteLexeme, if_neg (by decide), if_pos rfl, List.nil_append]
  obtain ⟨c, cs, rfl, hstart, hcs⟩ := hname
  rw [List.cons_append, splitCharLiteral.eq_def]
  split
  · rename_i heq
    obtain rfl := (List.cons.inj heq).1
    have hnone := continuesWord_symbol '\\' (by decide)
    rw [continuesWord_of_startsWord hstart] at hnone
    cases hnone
  · rename_i later _ heq
    have hlater := (List.cons.inj heq).2
    cases cs with
    | nil => exact absurd ⟨rfl, congrArg List.head? hlater⟩ hquote
    | cons d cs =>
      obtain rfl := (List.cons.inj hlater).1
      have hnone := continuesWord_symbol '\'' (by decide)
      rw [hcs _ (List.mem_cons_self ..)] at hnone
      cases hnone
  · rfl

namespace Lexeme

variable {lexeme : Lexeme}

/-- A lexeme is passed and replaced if the text after it does not extend it, nor what is left of it
without a quote. -/
theorem passes (hwell : lexeme.WellFormed) (hapart : ¬lexeme.ExtendedBy rest)
    (hcall : ¬lexeme.HidesCall rest) (hraw : ¬lexeme.HidesRawString rest) :
    Passes lexeme.print lexeme.replacement rest := by
  have hhead : ∀ {p : Char → Bool}, (¬∃ c ∈ rest.head?, p c = true) →
      ∀ c ∈ rest.head?, p c = false := by
    intro p hnone c hc
    exact Bool.eq_false_iff.2 fun hp => hnone ⟨c, hc, hp⟩
  -- what follows matters to the tokens that could go on, and to lifetimes
  cases lexeme with
  | capture kind digits => exact passes_capture hwell.1 hwell.2 (hhead hapart)
  | textCall => exact passes_call rest
  | string body => exact passes_string hwell rest
  | rawString marker hashes body => exact passes_rawString hwell.1 hwell.2 rest
  | character body => exact passes_character hwell rest
  | number run => exact passes_number hwell rest
  | other run => exact passes_other hwell rest
  | word name =>
    obtain ⟨hword, hself⟩ := not_or.1 hapart
    have hpasses : Passes (name ++ []) name rest :=
      passes_word hwell (hhead hword)
        (substituteWord_self (fun h => hself (.inl h)) fun h => hself (.inr h))
    rwa [List.append_nil] at hpasses
  | lifetime name =>
    obtain ⟨hword, hquote⟩ := not_or.1 hapart
    have hpasses : Passes (name ++ []) name rest :=
      passes_word hwell (hhead hword)
        (substituteWord_self hcall hraw)
    rw [List.append_nil] at hpasses
    exact (passes_quote hwell hquote).append hpasses

theorem HidesCall.exists (h : lexeme.HidesCall rest) :
    ∃ later, lexeme = lifetime "text".toList ∧ "()".toList ++ later = rest := by
  cases lexeme with
  | lifetime name =>
    obtain ⟨rfl, later, hlater⟩ := h
    exact ⟨later, rfl, hlater⟩
  | _ => exact h.elim

/-- A lifetime that hides the call is replaced after its quote. -/
theorem passes_hiddenCall (later : List Char) :
    Passes ('\'' :: "text()".toList) ('\'' :: matchedTextCall) later := by
  have hname : IsWord "text".toList := by decide
  have hquote : Passes ['\''] ['\''] ("text".toList ++ ("()".toList ++ later)) :=
    passes_quote hname nofun
  have hwhole : "text".toList ++ ("()".toList ++ later) = "text()".toList ++ later := rfl
  rw [hwhole] at hquote
  exact hquote.append (passes_call later)

end Lexeme

/-- What is written for such a lifetime is not the lifetime: another letter is after the quote. -/
theorem hiddenCall_ne {written written' : List Char} :
    '\'' :: matchedTextCall ++ written ≠
      (Lexeme.lifetime "text".toList).replacement ++ written' := by
  have hcall : matchedTextCall = 'r' :: matchedTextCall.tail := rfl
  have hname : (Lexeme.lifetime "text".toList).replacement = '\'' :: 't' :: "ext".toList := rfl
  rw [hcall, hname]
  intro heq
  exact absurd (List.cons.inj (List.cons.inj heq).2).1 (by decide)

/-! ### Mappers -/

/-- The scan replaces lexemes one after the other, and goes wrong at the first lifetime that hides
the call. -/
theorem substituteAll_eq_iff {lexemes : List Lexeme} (hwell : ∀ lexeme ∈ lexemes, lexeme.WellFormed)
    (hapart : Everywhere (fun lexeme rest => ¬lexeme.ExtendedBy rest) lexemes)
    (hraw : Everywhere (fun lexeme rest => ¬lexeme.HidesRawString rest) lexemes) {fuel : Nat}
    (hfuel : (printLexemes lexemes).length ≤ fuel) :
    substituteAll fuel (printLexemes lexemes) = replaceLexemes lexemes ↔
      Everywhere (fun lexeme rest => ¬lexeme.HidesCall rest) lexemes := by
  induction lexemes generalizing fuel with
  | nil =>
    refine iff_of_true ?_ trivial
    cases fuel with
    | zero => rfl
    | succ fuel => rfl
  | cons lexeme lexemes ih =>
    obtain ⟨hlexeme, hlexemes⟩ := List.forall_mem_cons.1 hwell
    have hprint : printLexemes (lexeme :: lexemes) = lexeme.print ++ printLexemes lexemes := rfl
    have hreplace : replaceLexemes (lexeme :: lexemes) =
        lexeme.replacement ++ replaceLexemes lexemes := rfl
    rw [hprint] at hfuel ⊢
    rw [hreplace]
    -- a hidden call is replaced in the middle of a token, so what comes out differs
    by_cases hcall : lexeme.HidesCall (printLexemes lexemes)
    · refine iff_of_false ?_ fun h => h.1 hcall
      obtain ⟨later, rfl, hlater⟩ := hcall.exists
      have hwhole : (Lexeme.lifetime "text".toList).print ++ printLexemes lexemes =
          '\'' :: "text()".toList ++ later := by
        rw [← hlater]
        rfl
      rw [hwhole] at hfuel ⊢
      obtain ⟨left, -, hscan⟩ := Lexeme.passes_hiddenCall later fuel hfuel
      intro heq
      rw [hscan] at heq
      exact hiddenCall_ne heq
    · obtain ⟨left, hleft, hscan⟩ :=
        Lexeme.passes hlexeme hapart.1 hcall hraw.1 fuel hfuel
      -- any other token passes the scanner whole, and the tokens after it decide
      rw [hscan, List.append_cancel_left_eq, ih hlexemes hapart.2 hraw.2 hleft]
      exact (and_iff_right hcall).symm

/-- In a mapper made of lexemes that do not run into one another, and without a lifetime that makes
a raw string of the text after it, variables and calls are replaced and everything else is copied,
just when no lifetime hides the call. -/
theorem substituteMapper_eq_iff {lexemes : List Lexeme}
    (hwell : ∀ lexeme ∈ lexemes, lexeme.WellFormed)
    (hapart : Everywhere (fun lexeme rest => ¬lexeme.ExtendedBy rest) lexemes)
    (hraw : Everywhere (fun lexeme rest => ¬lexeme.HidesRawString rest) lexemes) :
    substituteMapper (String.ofList (printLexemes lexemes)) =
        String.ofList (replaceLexemes lexemes) ↔
      Everywhere (fun lexeme rest => ¬lexeme.HidesCall rest) lexemes := by
  rw [substituteMapper, String.ofList_inj, String.toList_ofList]
  exact substituteAll_eq_iff hwell hapart hraw (by simp)

end Peg.Host

namespace Peg.Borrowed

open Host

/-- `f("$0 \"", r#"text()"#, 'a', &'text 1, $start0) + text().len()` -/
def quoted : List Lexeme :=
  [.word "f".toList, .other "(".toList, .string "$0 \\\"".toList, .other ", ".toList,
    .rawString "r".toList 1 "text()".toList, .other ", ".toList, .character ['a'],
    .other ", &".toList, .lifetime "text".toList, .other " ".toList, .number ['1'],
    .other ", ".toList, .capture .start ['0'], .other ") + ".toList, .textCall,
    .other ".".toList, .word "len".toList, .other "()".toList]

/-- Only the variable and the call are replaced. -/
theorem quoted_kept : substituteMapper (String.ofList (printLexemes quoted)) =
    String.ofList (replaceLexemes quoted) :=
  (substituteMapper_eq_iff (by decide +kernel) (by decide +kernel) (by decide +kernel)).2
    (by decide +kernel)

/-- `$0 as &'text()` -/
def reference : List Lexeme :=
  [.capture .value ['0'], .other " ".toList, .word "as".toList, .other " &".toList,
    .lifetime "text".toList, .other "()".toList]

/-- The lexemes are well-formed and nothing extends one of them, but what is written is not the
text in which they are replaced: the name of the lifetime is taken for the call. -/
theorem lifetime_replaced : (∀ lexeme ∈ reference, lexeme.WellFormed) ∧
    Everywhere (fun lexeme rest => ¬lexeme.ExtendedBy rest) reference ∧
    String.ofList (printLexemes reference) = "$0 as &'text()" ∧
    String.ofList (replaceLexemes reference) = "v0 as &'text()" ∧
    substituteMapper "$0 as &'text()" = "v0 as &'rt::matched_text(input, start, end)" :=
  ⟨by decide +kernel, by decide +kernel, by decide +kernel, by decide +kernel, by decide +kernel⟩

end Peg.Borrowed
