/-
Peg/Proofs/Regex/Escape.lean

Escapes, braces and flags are read without looking past a parenthesis.

One reader does look: after the escape for a word boundary there may be a name
in braces, and with nothing but insignificant text behind the brace it takes
the first thing that follows for an answer.  The brace opens a count then,
which cannot be read either, so this makes no difference in the end.
-/
import Peg.Proofs.Regex.Steady
import Peg.Proofs.Text.Split

namespace Peg.Regex

open Text

variable {α : Type} {f : List Char → Option (α × List Char)} {flags : Flags} {cs rest : List Char}

/-! ### Delimited text -/

/-- Split at the first occurrence of a character. -/
def upTo? (delimiter : Char) : List Char → Option (List Char × List Char)
  | [] => none
  | c :: cs =>
    if c = delimiter then some ([], cs)
    else (upTo? delimiter cs).map fun (taken, rest) => (c :: taken, rest)

theorem upTo?_cons_self (delimiter : Char) (cs : List Char) :
    upTo? delimiter (delimiter :: cs) = some ([], cs) :=
  if_pos rfl

theorem upTo?_cons_of_ne {c delimiter : Char} (h : c ≠ delimiter) (cs : List Char) :
    upTo? delimiter (c :: cs) =
      (upTo? delimiter cs).map fun (taken, rest) => (c :: taken, rest) :=
  if_neg h

/-- The two parts as the library gives them. -/
theorem upTo?_eq (delimiter : Char) (cs : List Char) : upTo? delimiter cs =
    match cs.drop (cs.takeWhile (· != delimiter)).length with
    | _ :: rest => some (cs.takeWhile (· != delimiter), rest)
    | [] => none := by
  induction cs with
  | nil => rfl
  | cons c cs ih =>
    by_cases hc : c = delimiter
    · subst hc
      simp [upTo?_cons_self]
    · rw [upTo?_cons_of_ne hc, ih, List.takeWhile_cons_of_pos (by simpa using hc),
        List.length_cons, List.drop_succ_cons]
      split
      · rfl
      · rfl

/-- The first part is all of the text before the delimiter. -/
theorem upTo?_eq_some_iff {delimiter : Char} {taken : List Char} :
    upTo? delimiter cs = some (taken, rest) ↔
      cs = taken ++ delimiter :: rest ∧ delimiter ∉ taken := by
  induction cs generalizing taken with
  | nil => simp [upTo?]
  | cons c cs ih =>
    by_cases hc : c = delimiter
    · subst hc
      cases taken with
      | nil => simp [upTo?_cons_self, eq_comm]
      | cons d taken => simp +contextual [upTo?_cons_self, eq_comm]
    · rw [upTo?_cons_of_ne hc]
      cases taken with
      | nil => simp [hc]
      | cons d taken =>
        rw [Option.map_eq_some_iff, List.cons_append, List.mem_cons, not_or, List.cons.injEq]
        constructor
        · rintro ⟨⟨taken, rest⟩, hread, ⟨⟩⟩
          obtain ⟨rfl, htaken⟩ := ih.1 hread
          exact ⟨⟨rfl, rfl⟩, Ne.symm hc, htaken⟩
        · rintro ⟨⟨rfl, hcs⟩, -, htaken⟩
          exact ⟨(taken, rest), ih.2 ⟨hcs, htaken⟩, rfl⟩

/-- What is taken and what is left, if the delimiter is there. -/
theorem takeWhile_of_upTo? {delimiter : Char} {taken : List Char}
    (h : upTo? delimiter cs = some (taken, rest)) :
    cs.takeWhile (· != delimiter) = taken ∧ cs.drop taken.length = delimiter :: rest := by
  obtain ⟨rfl, htaken⟩ := upTo?_eq_some_iff.1 h
  refine ⟨takeWhile_append_of_head? (fun c hc => ?_) (by simp), List.drop_left⟩
  simpa using fun heq : c = delimiter => htaken (heq ▸ hc)

/-- Without the delimiter everything is taken. -/
theorem drop_of_upTo?_eq_none {delimiter : Char} (h : upTo? delimiter cs = none) :
    cs.drop (cs.takeWhile (· != delimiter)).length = [] := by
  rw [upTo?_eq] at h
  split at h
  · cases h
  · assumption

theorem shrinks_upTo? (delimiter : Char) : Shrinks (upTo? delimiter) := by
  intro cs taken rest h
  rw [(upTo?_eq_some_iff.1 h).1]
  exact (List.suffix_cons ..).trans (List.suffix_append ..)

/-- If the parenthesis is left, the delimiter was found before it. -/
theorem steady_upTo? {delimiter : Char} (h : delimiter ≠ ')') : Steady (upTo? delimiter) := by
  have hother : ∀ {c : Char}, c ≠ delimiter → (fun cs => upTo? delimiter (c :: cs)) =
      fun cs => (upTo? delimiter cs).map fun read => (c :: read.1, read.2) :=
    fun hc => funext fun cs => upTo?_cons_of_ne hc cs
  refine ⟨shrinks_upTo? delimiter, fun cs => ?_⟩
  induction cs with
  | nil =>
    refine steadyAt_nil ?_
    rw [hother h.symm]
    exact (shrinks_upTo? delimiter).map _
  | cons c cs ih =>
    show SteadyAt (fun cs => upTo? delimiter (c :: cs)) cs
    by_cases hc : c = delimiter
    · rw [hc, funext (upTo?_cons_self delimiter)]
      exact (steady_some []).steadyAt cs
    · rw [hother hc]
      exact ih.map _

/-- Take characters of a kind that parentheses are not of. -/
theorem steady_takeWhile {p : Char → Bool} (hp : p ')' = false) :
    Steady fun cs => some (cs.takeWhile p, cs.dropWhile p) where
  shrinks := by
    rintro cs _ _ ⟨⟩
    exact List.dropWhile_suffix p
  steadyAt := by
    have hstop : ∀ {stop : List Char}, Stop stop →
        stop.takeWhile p = [] ∧ stop.dropWhile p = stop := by
      rintro _ (rfl | ⟨others, rfl⟩)
      · exact ⟨rfl, rfl⟩
      · simp [hp]
    intro cs
    induction cs with
    | nil =>
      intro others value rest hread stop h
      obtain ⟨hvalue, hrest⟩ := Prod.mk.inj (Option.some.inj hread)
      rw [List.nil_append, (hstop (stop_cons others)).1] at hvalue
      rw [List.nil_append, (hstop (stop_cons others)).2] at hrest
      obtain rfl : [] = rest := List.append_cancel_right (hrest : [] ++ ')' :: others = _)
      show some (stop.takeWhile p, stop.dropWhile p) = some (value, stop)
      rw [(hstop h).1, (hstop h).2, hvalue]
    | cons c cs ih =>
      show SteadyAt (fun cs => some ((c :: cs).takeWhile p, (c :: cs).dropWhile p)) cs
      by_cases hc : p c = true
      · simp only [List.takeWhile_cons_of_pos hc, List.dropWhile_cons_of_pos hc]
        exact ih.map (c :: ·)
      · simp only [List.takeWhile_cons_of_neg hc, List.dropWhile_cons_of_neg hc]
        exact (steady_some []).steadyAt (c :: cs)

/-! ### Hexadecimal escapes -/

/-- A parenthesis is no digit. -/
theorem steady_parseHexDigits? (flags : Flags) (count value : Nat) :
    Steady (parseHexDigits? flags count value) := by
  induction count generalizing value with
  | zero =>
    have heq : parseHexDigits? flags 0 value = fun cs => some (value, cs) := by
      funext cs
      rw [parseHexDigits?]
    rw [heq]
    exact steady_some value
  | succ count ih =>
    refine .of_cons rfl fun c => ?_
    simp only [parseHexDigits?]
    rcases hexDigit? c with - | digit
    · exact steady_none
    · exact (ih _).skip flags

/-- Read the closing brace, or a character and what comes after it. -/
def braceOrMore (taken : List Char)
    (next : List Char → List Char → Option (List Char × List Char)) :
    List Char → Option (List Char × List Char)
  | [] => none
  | c :: cs => if c == '\x7d' then some (taken.reverse, cs) else next (c :: taken) cs

/-- One step: a closing brace, or a character that is kept. -/
theorem parseBraces?_succ (flags : Flags) (fuel : Nat) (taken cs : List Char) :
    parseBraces? flags (fuel + 1) taken cs =
      braceOrMore taken (parseBraces? flags fuel) (flags.skip cs) := by
  rw [parseBraces?.eq_def]
  rcases flags.skip cs with - | ⟨c, cs'⟩
  · rfl
  · rfl

/-- One fuel for each character is enough. -/
theorem parseBraces?_fuel {fuel fuel' : Nat} {taken : List Char} (h : cs.length < fuel)
    (h' : cs.length < fuel') :
    parseBraces? flags fuel taken cs = parseBraces? flags fuel' taken cs := by
  induction fuel generalizing fuel' taken cs with
  | zero => omega
  | succ fuel ih =>
    obtain ⟨fuel', rfl⟩ := Nat.exists_eq_add_of_le' (Nat.one_le_of_lt h')
    have hskip := (flags.skip_suffix cs).length_le
    rw [parseBraces?_succ, parseBraces?_succ]
    rcases hcs : flags.skip cs with - | ⟨c, cs'⟩
    · rfl
    · rw [hcs, List.length_cons] at hskip
      have hnext : ∀ taken,
          parseBraces? flags fuel taken cs' = parseBraces? flags fuel' taken cs' :=
        fun taken => ih (by omega) (by omega)
      simp only [braceOrMore, hnext]

/-- The reader goes on to the closing brace, by induction on the fuel. -/
theorem steady_parseBraces? (flags : Flags) (fuel : Nat) (taken : List Char) :
    Steady (parseBraces? flags fuel taken) := by
  induction fuel generalizing taken with
  | zero => exact steady_none
  | succ fuel ih =>
    rw [funext (parseBraces?_succ flags fuel taken)]
    refine Steady.skip flags (.of_cons rfl fun c => ?_)
    simp only [braceOrMore]
    split
    · exact steady_some _
    · exact ih _

/-- Read what is in braces, and make a value of it. -/
def readBraces? (flags : Flags) (value? : List Char → Option α) (cs : List Char) :
    Option (α × List Char) :=
  (parseBraces? flags (cs.length + 1) [] cs).bind fun read => (value? read.1).map (·, read.2)

/-- The same as a match on what is in the braces. -/
theorem readBraces?_eq (flags : Flags) (value? : List Char → Option α) (cs : List Char) :
    readBraces? flags value? cs = match parseBraces? flags (cs.length + 1) [] cs with
      | some (taken, cs) => (value? taken).map (·, cs)
      | none => none := by
  rw [readBraces?]
  rcases parseBraces? flags (cs.length + 1) [] cs with - | ⟨taken, rest⟩
  · rfl
  · rfl

/-- The braces are closed before the parenthesis, or they hold it. -/
theorem steady_readBraces? (flags : Flags) (value? : List Char → Option α) :
    Steady (readBraces? flags value?) := by
  have hbraces : Steady fun cs => parseBraces? flags (cs.length + 1) [] cs :=
    Steady.of_fuel (fun fuel => steady_parseBraces? flags fuel [])
      fun _ cs h => parseBraces?_fuel h (Nat.lt_succ_self cs.length)
  exact hbraces.filterMap value?

/-- A hexadecimal escape has its digits in braces, or a fixed number of them. -/
theorem parseHex?_eq (flags : Flags) (count : Nat) : parseHex? flags count = fun cs =>
    onHead '\x7b' (readBraces? flags charOfHex?)
      (fun cs => (parseHexDigits? flags count 0 cs).bind fun read =>
        (charOf? read.1).map (·, read.2))
      (flags.skip cs) := by
  funext cs
  rw [parseHex?]
  split
  · rename_i cs' heq
    rw [heq, onHead_cons_self]
    exact (readBraces?_eq flags charOfHex? cs').symm
  · rename_i hother
    rw [onHead_of_forall _ _ hother]
    rcases parseHexDigits? flags count 0 (flags.skip cs) with - | ⟨code, rest⟩
    · rfl
    · rfl

/-- In both forms the escape ends where its last digit or its brace is. -/
theorem steady_parseHex? (flags : Flags) (count : Nat) : Steady (parseHex? flags count) := by
  rw [parseHex?_eq]
  refine Steady.skip flags (.onHead (by decide) ?_ ?_)
  · exact steady_readBraces? flags charOfHex?
  · exact (steady_parseHexDigits? flags count 0).filterMap _

/-! ### Properties -/

/-- The property with a name of one character, which a backslash is not. -/
def letterProperty? (flags : Flags) (negated : Bool) : List Char → Option (CharSet × List Char)
  | [] => none
  | c :: cs => if c = '\\' then none else (flags.property? negated [c]).map (·, cs)

/-- A property has its name in braces, or a name of one character. -/
theorem parseProperty?_eq (flags : Flags) (negated : Bool) :
    parseProperty? flags negated = fun cs =>
      onHead '\x7b' (readBraces? flags (flags.property? negated)) (letterProperty? flags negated)
        (flags.skip cs) := by
  funext cs
  rw [parseProperty?]
  split
  · rename_i cs' heq
    rw [heq, onHead_cons_self]
    exact (readBraces?_eq flags (flags.property? negated) cs').symm
  · rename_i heq
    rw [heq]
    rfl
  · rename_i heq
    rw [heq]
    rfl
  · rename_i c cs' hbrace hbackslash heq
    have hhead : (c :: cs').head? ≠ some '\x7b' := fun h => hbrace (Option.some.inj h)
    rw [heq, onHead_of_ne _ _ hhead, letterProperty?, if_neg hbackslash]

theorem steady_letterProperty? (flags : Flags) (negated : Bool) :
    Steady (letterProperty? flags negated) := by
  refine .of_cons rfl fun c => ?_
  simp only [letterProperty?]
  split
  · exact steady_none
  · exact steady_pure _

/-- Which properties there are is up to the dialect; where their names end is not. -/
theorem steady_parseProperty? (flags : Flags) (negated : Bool) :
    Steady (parseProperty? flags negated) := by
  rw [parseProperty?_eq]
  refine Steady.skip flags (.onHead (by decide) ?_ ?_)
  · exact steady_readBraces? flags (flags.property? negated)
  · exact steady_letterProperty? flags negated

/-! ### Word boundaries -/

/-- The characters of the names of word boundaries. -/
def isEdgeChar (c : Char) : Bool :=
  c.isAlpha || c == '-'

/-- The word boundary with a name. -/
def edgeNamed? (name : List Char) : Option WordEdge :=
  match String.ofList name with
  | "start" => some .wordStart
  | "end" => some .wordEnd
  | "start-half" => some .notAfterWord
  | "end-half" => some .notBeforeWord
  | _ => none

/-- Read the brace after a name. -/
def braceAfter (name : List Char) : List Char → Option (WordEdge × List Char) :=
  onHead '\x7d' (fun cs => (edgeNamed? (name.filter isEdgeChar)).map (·, cs)) fun _ => none

/-- Read a name and the brace after it. -/
def namedEdge? (flags : Flags) (cs : List Char) : Option (WordEdge × List Char) :=
  let isNameChar := fun c => isEdgeChar c || (flags.verbose && isBlank c)
  (some (cs.takeWhile isNameChar, cs.dropWhile isNameChar)).bind fun read =>
    braceAfter read.1 read.2

/-- A brace after a word boundary holds a name if it begins like one. -/
theorem parseEdge?_brace (flags : Flags) (inside : List Char) :
    parseEdge? ('\x7b' :: inside) flags = match flags.skip inside with
      | [] => none
      | c :: cs =>
        if isEdgeChar c then namedEdge? flags (c :: cs)
        else some (.boundary, '\x7b' :: inside) := by
  have hname : ∀ name rest : List Char, (match String.ofList name with
      | "start" => some (WordEdge.wordStart, rest)
      | "end" => some (.wordEnd, rest)
      | "start-half" => some (.notAfterWord, rest)
      | "end-half" => some (.notBeforeWord, rest)
      | _ => none) = (edgeNamed? name).map (·, rest) := by
    intro name rest
    rw [edgeNamed?]
    split <;> rfl
  rw [parseEdge?]
  rcases flags.skip inside with - | ⟨c, cs⟩
  · rfl
  · simp only [isEdgeChar, namedEdge?, braceAfter, drop_length_takeWhile, Option.bind_some]
    by_cases hc : (c.isAlpha || c == '-') = true
    · simp only [hc, if_true]
      split
      · rename_i rest hrest
        rw [hrest, onHead_cons_self]
        exact hname _ rest
      · rename_i hother
        rw [onHead_of_forall _ _ hother]
    · simp only [hc, Bool.false_eq_true, if_false]

/-- Without a brace it is the ordinary boundary. -/
theorem parseEdge?_other (flags : Flags) (h : cs.head? ≠ some '\x7b') :
    parseEdge? cs flags = some (.boundary, cs) := by
  rw [parseEdge?.eq_def]
  split
  · exact absurd rfl h
  · rfl

theorem steady_braceAfter (name : List Char) : Steady (braceAfter name) :=
  .onHead (by decide) (steady_pure _) steady_none

/-- Names hold letters and dashes only, so they end before a parenthesis. -/
theorem steady_namedEdge? (flags : Flags) : Steady (namedEdge? flags) := by
  have hparenthesis : (isEdgeChar ')' || (flags.verbose && isBlank ')')) = false := by
    rcases flags.verbose with - | -
    · decide
    · decide
  exact (steady_takeWhile (p := fun c => isEdgeChar c || (flags.verbose && isBlank c))
    hparenthesis).bind steady_braceAfter

/-- The rest does not begin with a brace that has nothing significant behind it. -/
def Braced (flags : Flags) (rest : List Char) : Prop :=
  ∀ inside, rest = '\x7b' :: inside → flags.skip inside ≠ []

/-- The brace is either left where it is or taken with its name. -/
theorem shrinks_parseEdge? (flags : Flags) : Shrinks fun cs => parseEdge? cs flags := by
  intro cs edge rest h
  dsimp only at h
  rcases head_cases '\x7b' cs with ⟨inside, rfl⟩ | hbrace
  · have hskip := (flags.skip_suffix inside).trans (List.suffix_cons '\x7b' inside)
    rw [parseEdge?_brace] at h
    rcases hcs : flags.skip inside with - | ⟨c, cs⟩
    · rw [hcs] at h
      cases h
    · rw [hcs] at h hskip
      dsimp only at h
      split at h
      · exact ((steady_namedEdge? flags).shrinks h).trans hskip
      · cases h
        exact List.suffix_rfl
  · rw [parseEdge?_other flags hbrace] at h
    cases h
    exact List.suffix_rfl

/-- A name takes at least its first letter. -/
theorem namedEdge?_tail {c : Char} {edge : WordEdge} (hc : isEdgeChar c = true)
    (h : namedEdge? flags (c :: cs) = some (edge, rest)) : rest <:+ cs := by
  have hname : (isEdgeChar c || (flags.verbose && isBlank c)) = true := by rw [hc, Bool.true_or]
  rw [namedEdge?, Option.bind_some] at h
  have hrest := (steady_braceAfter _).shrinks h
  dsimp only at hrest
  rw [List.dropWhile_cons_of_pos (p := fun c => isEdgeChar c || (flags.verbose && isBlank c))
    hname] at hrest
  exact hrest.trans (List.dropWhile_suffix _)

/-- The brace after a word boundary is seen to hold a name or none, if anything is in it. -/
theorem parseEdge?_before {edge : WordEdge} {others stop : List Char}
    (h : parseEdge? (cs ++ ')' :: others) flags = some (edge, rest ++ ')' :: others))
    (hbraced : Braced flags rest) (hstop : Stop stop) :
    parseEdge? (cs ++ stop) flags = some (edge, rest ++ stop) := by
  rcases head_cases '\x7b' cs with ⟨inside, rfl⟩ | hbrace
  · rw [List.cons_append, parseEdge?_brace] at h ⊢
    -- without a name the brace is left where it is
    have hleft : some (WordEdge.boundary, '\x7b' :: (inside ++ ')' :: others)) =
        some (edge, rest ++ ')' :: others) → edge = .boundary ∧ rest = '\x7b' :: inside := by
      intro heq
      obtain ⟨hedge, hrest⟩ := Prod.mk.inj (Option.some.inj heq)
      rw [← List.cons_append] at hrest
      exact ⟨hedge.symm, (List.append_cancel_right hrest).symm⟩
    rcases hskip : flags.skip inside with - | ⟨c, cs⟩
    · exfalso
      rcases hafter : flags.skip (inside ++ ')' :: others) with - | ⟨d, later⟩
      · rw [hafter] at h
        cases h
      · rw [hafter] at h
        dsimp only at h
        split at h
        · -- a name behind the parenthesis
          rename_i hname
          have hlater : later <:+ others := by
            rcases Flags.skip_append_of_eq_nil hskip with hall | hcomment
            · rw [hall, flags.skip_stop (stop_cons others)] at hafter
              exact (List.cons.inj hafter).2 ▸ List.suffix_rfl
            · exact (List.suffix_cons d later).trans (hafter ▸ hcomment others)
          exact not_suffix_of_cons ((namedEdge?_tail hname h).trans hlater)
        · exact hbraced inside (hleft h).2 hskip
    · rw [Flags.skip_append_of_eq_cons hskip] at h ⊢
      dsimp only at h ⊢
      split at h
      · rename_i hname
        rw [if_pos hname]
        exact (steady_namedEdge? flags).steadyAt (c :: cs) h hstop
      · rename_i hname
        rw [if_neg hname]
        obtain ⟨rfl, rfl⟩ := hleft h
        rfl
  · rw [parseEdge?_other flags ((stop_cons others).head?_append_ne (by decide) hbrace)] at h
    obtain ⟨rfl, hrest⟩ := Prod.mk.inj (Option.some.inj h)
    rw [parseEdge?_other flags (hstop.head?_append_ne (by decide) hbrace),
      List.append_cancel_right hrest]

/-! ### Escapes -/

/-- All escapes but the one that may have a name in braces. -/
theorem steady_parseEscape? (flags : Flags) {c : Char} (hc : c ≠ 'b') :
    Steady fun cs => parseEscape? flags (c :: cs) := by
  simp only [parseEscape?]
  split
  · exact (steady_parseHex? flags 2).map Primitive.char
  · exact (steady_parseHex? flags 4).map Primitive.char
  · exact (steady_parseHex? flags 8).map Primitive.char
  · exact (steady_parseProperty? flags false).map Primitive.cls
  · exact (steady_parseProperty? flags true).map Primitive.cls
  any_goals exact steady_some _
  · exact absurd rfl hc
  · rcases flags.escapedClass? c with - | set
    · dsimp only
      split
      · exact steady_some _
      · exact steady_none
    · exact steady_some _

theorem parseEscape?_edge (flags : Flags) (cs : List Char) : parseEscape? flags ('b' :: cs) =
    (parseEdge? cs flags).map fun (edge, rest) => (.assertion (.word edge flags.ascii), rest) :=
  rfl

/-- Every escape leaves an end of the text. -/
theorem shrinks_parseEscape? (flags : Flags) (c : Char) :
    Shrinks fun cs => parseEscape? flags (c :: cs) := by
  by_cases hc : c = 'b'
  · subst hc
    exact (shrinks_parseEdge? flags).map fun edge => Primitive.assertion (.word edge flags.ascii)
  · exact (steady_parseEscape? flags hc).shrinks

/-- An escape that is not taken for a word boundary by mistake is read before every stop. -/
theorem parseEscape?_before {c : Char} {primitive : Primitive} {others stop : List Char}
    (h : parseEscape? flags (c :: (cs ++ ')' :: others)) = some (primitive, rest ++ ')' :: others))
    (hbraced : Braced flags rest) (hstop : Stop stop) :
    parseEscape? flags (c :: (cs ++ stop)) = some (primitive, rest ++ stop) := by
  by_cases hc : c = 'b'
  · subst hc
    rw [parseEscape?_edge] at h ⊢
    obtain ⟨⟨edge, text⟩, hedge, heq⟩ := Option.map_eq_some_iff.1 h
    obtain ⟨rfl, rfl⟩ := Prod.mk.inj heq
    rw [parseEdge?_before hedge hbraced hstop]
    rfl
  · exact (steady_parseEscape? flags hc).steadyAt cs h hstop

end Peg.Regex
