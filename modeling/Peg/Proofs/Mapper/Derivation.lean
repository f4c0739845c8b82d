/-
Peg/Proofs/Mapper/Derivation.lean

Mapper expressions are read as their grammar derives them:

    parse code = .ok expr   iff   the grammar derives the code with the tree expr

What is read is derived (`Peg/Proofs/Mapper/Soundness.lean`).  In the other
direction, a derivation before a text that cannot continue it is read to its
end.  That text is known by its first character after blanks: a plus sign or a
closer may follow a term, only a closer a sum.  A reader stops at blanks or
behind them, so the texts are compared without the blanks at their starts.

The fuel counts calls.  From one term to a term inside it there are at most
four, and at least one character is passed, so four times the length of the
text is enough.
-/
import Peg.Proofs.Grammar.Check
import Peg.Proofs.Mapper.Soundness
import Peg.Proofs.Text.Boundary

namespace Peg.MapperExpr

open Text

variable {cs source rest : List Char} {fuel : Nat}

/-! ### Whatever is derived is read -/

/-- The symbols that can come after an expression. -/
def closers : List Char :=
  [',', ')', ']']

/-- After blanks the text ends, or goes on with one of some symbols. -/
def Before (symbols rest : List Char) : Prop :=
  ∀ c ∈ (trimStart rest).head?, c ∈ symbols

theorem Spaced.head? {c : Char} {token : List Char} (h : Spaced (c :: token) cs)
    (hc : isBlank c = false) (rest : List Char) : (trimStart (cs ++ rest)).head? = some c := by
  rw [h.trimStart_append hc]
  rfl

theorem Spaced.before {symbol : Char} {symbols : List Char} (h : Spaced [symbol] cs)
    (hsymbol : isBlank symbol = false) (hmem : symbol ∈ symbols) (rest : List Char) :
    Before symbols (cs ++ rest) := by
  intro c hc
  rw [h.head? hsymbol, Option.mem_some_iff] at hc
  rwa [← hc]

theorem isNameChar_range {c : Char} (h : isNameChar c = true) : 48 ≤ c.toNat ∧ c.toNat ≤ 122 := by
  simp only [isNameChar, Char.isAlphanum, Meta.isAlpha_eq, Char.isDigit, Bool.or_eq_true,
    Bool.and_eq_true, decide_eq_true_eq, beq_iff_eq, Char.le_def, UInt32.le_iff_toNat_le] at h
  rcases h with h | rfl
  · have htoNat : c.toNat = c.val.toNat := rfl
    simp at h
    omega
  · decide

theorem isNameChar_of_isBlank {c : Char} (h : isBlank c = true) : isNameChar c = false := by
  by_contra hname
  have hrange := isNameChar_range (by simpa using hname)
  simp only [isBlank, Bool.or_eq_true, Bool.and_eq_true, decide_eq_true_eq, beq_iff_eq] at h
  omega

theorem isBlank_of_isNameChar {c : Char} (h : isNameChar c = true) : isBlank c = false := by
  by_contra hblank
  rw [isNameChar_of_isBlank (by simpa using hblank)] at h
  cases h

/-- What follows directly is blank or one of the symbols, so it continues neither a name nor a
number. -/
theorem Before.head? {symbols : List Char} (h : Before symbols rest)
    (hsymbols : ∀ c ∈ symbols, isNameChar c = false) : ∀ c ∈ rest.head?, isNameChar c = false := by
  cases rest with
  | nil => exact nofun
  | cons c rest =>
    intro d hd
    cases hd
    by_cases hc : isBlank c = true
    · exact isNameChar_of_isBlank hc
    · refine hsymbols c (h c ?_)
      rw [trimStart_cons (by simpa using hc)]
      rfl

theorem isNameChar_of_isDigit {c : Char} (h : c.isDigit = true) : isNameChar c = true := by
  simp [isNameChar, Char.isAlphanum, h]

/-- A term begins with none of the symbols that come after one. -/
theorem IsTerm.head? {expr : MapperExpr} (h : IsTerm cs expr) (rest : List Char) :
    ∃ c, (trimStart (cs ++ rest)).head? = some c ∧ c ∉ closers := by
  cases h with
  | capture _ h => exact ⟨'$', h.head? (by decide) rest, by decide⟩
  | startOf _ h => exact ⟨'$', h.head? (by decide) rest, by decide⟩
  | endOf _ h => exact ⟨'$', h.head? (by decide) rest, by decide⟩
  | start h => exact ⟨'s', h.head? (by decide) rest, by decide⟩
  | stop h => exact ⟨'e', h.head? (by decide) rest, by decide⟩
  | text hword _ _ =>
    rw [List.append_assoc]
    exact ⟨'t', hword.head? (by decide) _, by decide⟩
  | str hquote _ h =>
    rcases hquote with rfl | rfl
    · exact ⟨'\'', h.head? (by decide) rest, by decide⟩
    · exact ⟨'"', h.head? (by decide) rest, by decide⟩
  | list hopening _ _ =>
    rw [List.append_assoc]
    exact ⟨'[', hopening.head? (by decide) _, by decide⟩
  | parentheses hopening _ _ =>
    rw [List.append_assoc]
    exact ⟨'(', hopening.head? (by decide) _, by decide⟩
  | node hname _ hword _ _ _ =>
    obtain ⟨c, word, htoList, hc, -⟩ := hname
    have hchar := isNameChar_of_isNameStart hc
    rw [htoList] at hword
    rw [List.append_assoc]
    refine ⟨c, hword.head? (isBlank_of_isNameChar hchar) _, ?_⟩
    rw [closers, List.mem_cons, List.mem_cons, List.mem_singleton]
    rintro (rfl | rfl | rfl)
    · exact absurd hchar (by decide)
    · exact absurd hchar (by decide)
    · exact absurd hchar (by decide)

theorem IsSum.head? {expr : MapperExpr} (h : IsSum cs expr) (rest : List Char) :
    ∃ c, (trimStart (cs ++ rest)).head? = some c ∧ c ∉ closers := by
  cases h with
  | single hterm => exact hterm.head? rest
  | sum hfirst _ _ =>
    rw [List.append_assoc]
    exact hfirst.head? _

theorem AreSeparated.head? {items : List MapperExpr} (h : AreSeparated cs items)
    (rest : List Char) : ∃ c, (trimStart (cs ++ rest)).head? = some c ∧ c ∉ closers := by
  cases h with
  | last hitem => exact hitem.head? rest
  | more hitem _ _ =>
    rw [List.append_assoc]
    exact hitem.head? _

theorem AreMoreTerms.before {terms : List MapperExpr} (h : AreMoreTerms cs terms)
    (hrest : Before closers rest) : Before ('+' :: closers) (cs ++ rest) := by
  cases h with
  | none => exact fun c hc => List.mem_cons_of_mem _ (hrest c hc)
  | more hplus _ _ =>
    rw [List.append_assoc]
    exact hplus.before (by decide) (List.mem_cons_self ..) _

/-! #### Symbols -/

theorem eat_congr {symbol : Char} (h : trimStart source = trimStart cs) :
    eat symbol source = eat symbol cs := by
  rw [← eat_trimStart, h, eat_trimStart]

theorem eat_of_head? {symbol : Char} (h : ∃ c, (trimStart cs).head? = some c ∧ c ≠ symbol) :
    eat symbol cs = (false, trimStart cs) := by
  obtain ⟨c, hc, hne⟩ := h
  refine eat_other fun d hd => ?_
  rw [hc, Option.mem_some_iff] at hd
  rwa [← hd]

/-- A symbol that may not come next is not found. -/
theorem Before.eat {symbols : List Char} {symbol : Char} (h : Before symbols rest)
    (hsymbol : symbol ∉ symbols) : eat symbol rest = (false, trimStart rest) := by
  refine eat_other fun c hc => ?_
  rintro rfl
  exact hsymbol (h c hc)

/-- The symbols that close a list. -/
def IsClosing (symbol : Char) : Prop :=
  symbol = ')' ∨ symbol = ']'

theorem IsClosing.mem_closers {symbol : Char} (h : IsClosing symbol) : symbol ∈ closers := by
  rcases h with rfl | rfl
  · decide
  · decide

theorem IsClosing.isBlank_eq {symbol : Char} (h : IsClosing symbol) : isBlank symbol = false := by
  rcases h with rfl | rfl
  · decide
  · decide

theorem IsClosing.ne_comma {symbol : Char} (h : IsClosing symbol) : ',' ≠ symbol := by
  rcases h with rfl | rfl
  · decide
  · decide

/-- An empty list is closed at once. -/
theorem readList_none (fuel : Nat) {closing : Char} {symbol : List Char}
    (hclosing : IsClosing closing) (hsymbol : Spaced [closing] symbol)
    (hsource : trimStart source = trimStart (symbol ++ rest)) :
    readList (fuel + 1) closing source = .ok ([], rest) := by
  rw [readList, eat_congr hsource, hsymbol.eat_append hclosing.isBlank_eq]

/-- Without a plus sign there are no more terms. -/
theorem readMoreTerms_none (fuel : Nat) (hsource : trimStart source = trimStart rest)
    (hrest : Before closers rest) :
    readMoreTerms (fuel + 1) source = .ok ([], trimStart rest) := by
  rw [readMoreTerms, eat_congr hsource, hrest.eat (by decide)]

/-! #### Names and variables -/

theorem isNameChar_of_mem_symbols : ∀ c ∈ '+' :: closers, isNameChar c = false := by
  intro c hc
  have hall : ('+' :: closers).all (fun c => !isNameChar c) = true := by decide
  simpa using List.all_eq_true.1 hall c hc

/-- A name is read up to what cannot continue it. -/
theorem readTerm_of_identifier (fuel : Nat) {name : String} (hname : IsIdentifier name)
    {word after : List Char} (hword : Spaced name.toList word)
    (hsource : trimStart source = trimStart (word ++ after))
    (hafter : ∀ c ∈ after.head?, isNameChar c = false) :
    ∃ here, readTerm (fuel + 1) source = readNamed fuel name.toList after here := by
  obtain ⟨c, others, htoList, hc, hothers⟩ := hname
  have hchar := isNameChar_of_isNameStart hc
  have hothers : ∀ c ∈ others, isNameChar c = true := hothers
  rw [htoList] at hword ⊢
  rw [hword.trimStart_append (isBlank_of_isNameChar hchar)] at hsource
  refine ⟨c :: (others ++ after), ?_⟩
  rw [readTerm_name hc hsource, List.takeWhile_cons_of_pos hchar,
    takeWhile_append_of_head? hothers hafter, dropWhile_append_of_head? hothers hafter]

/-- A name with arguments after it is read up to where its arguments begin. -/
theorem readTerm_of_call (fuel : Nat) {name : String} (hname : IsIdentifier name)
    {word opening : List Char} (hword : Spaced name.toList word) (hopening : Spaced ['('] opening)
    (hsource : trimStart source = trimStart (word ++ (opening ++ rest))) :
    ∃ here, readTerm (fuel + 1) source = match readList fuel ')' rest with
      | .error error => .error error
      | .ok (arguments, rest) =>
        if name = "text" then
          if arguments.isEmpty then .ok (.text, rest) else .error (.textWithArguments, here)
        else .ok (.node name arguments, rest) := by
  have hafter : Before ['('] (opening ++ rest) :=
    hopening.before (by decide) (List.mem_singleton_self _) rest
  have hparen : ∀ c ∈ ['('], isNameChar c = false := List.forall_mem_singleton.2 (by decide)
  obtain ⟨here, hread⟩ :=
    readTerm_of_identifier fuel hname hword hsource (hafter.head? hparen)
  have heat : eat '(' (opening ++ rest) = (true, rest) := hopening.eat_append (by decide) rest
  refine ⟨here, ?_⟩
  rcases hlist : readList fuel ')' rest with error | ⟨arguments, after⟩
  · simp only [hread, readNamed, heat, hlist]
  · simp only [hread, readNamed, heat, hlist, String.ofList_toList]

/-- An offset's name is read as the offset, since no argument list follows. -/
theorem readTerm_of_offset (fuel : Nat) {name : String} {expr : MapperExpr}
    (hoffset : name = "start" ∧ expr = .start ∨ name = "end" ∧ expr = .stop)
    (hword : Spaced name.toList cs) (hsource : trimStart source = trimStart (cs ++ rest))
    (hrest : Before ('+' :: closers) rest) :
    readTerm (fuel + 1) source = .ok (expr, trimStart rest) := by
  have hname : IsIdentifier name := by
    rcases hoffset with ⟨rfl, -⟩ | ⟨rfl, -⟩
    · decide
    · decide
  obtain ⟨here, hread⟩ :=
    readTerm_of_identifier fuel hname hword hsource (hrest.head? isNameChar_of_mem_symbols)
  rw [hread, readNamed, hrest.eat (by decide), String.ofList_toList]
  rcases hoffset with ⟨rfl, rfl⟩ | ⟨rfl, rfl⟩
  · rfl
  · rfl

theorem readTerm_of_variable (fuel : Nat) {letters digits : List Char} {make : Nat → MapperExpr}
    {index : Nat} (hletters : ∀ c ∈ letters, c.isAlpha = true)
    (hmake : variableOf? letters = some make) (hindex : IsIndex digits index)
    (hword : Spaced ('$' :: (letters ++ digits)) cs)
    (hsource : trimStart source = trimStart (cs ++ rest)) (hrest : Before ('+' :: closers) rest) :
    readTerm (fuel + 1) source = .ok (make index, rest) := by
  rw [hword.trimStart_append (by decide), List.append_assoc] at hsource
  rw [readTerm_variable hsource]
  refine readVariable_of_isIndex hletters hmake hindex fun c hc => ?_
  by_contra hdigit
  have hname := hrest.head? isNameChar_of_mem_symbols c hc
  rw [isNameChar_of_isDigit (by simpa using hdigit)] at hname
  cases hname

theorem readTerm_of_string (fuel : Nat) {quote : Char} {inner text : List Char}
    (hquote : quote = '\'' ∨ quote = '"') (hinner : Spells quote inner text)
    (hword : Spaced (quote :: (inner ++ [quote])) cs)
    (hsource : trimStart source = trimStart (cs ++ rest)) :
    readTerm (fuel + 1) source = .ok (.str (String.ofList text), rest) := by
  have hproper : quote ≠ '\\' ∧ isBlank quote = false := by
    rcases hquote with rfl | rfl
    · decide
    · decide
  rw [hword.trimStart_append hproper.2, List.append_assoc, List.singleton_append] at hsource
  rw [readTerm_string hquote hsource, readString_of_spells hproper.1 hinner]

/-! #### Expressions -/

mutual

/-- A sum is read up to the closer after it. -/
theorem IsSum.reads : ∀ {cs : List Char} {expr : MapperExpr}, IsSum cs expr →
    ∀ (fuel : Nat) {source rest : List Char}, 4 * cs.length + 2 ≤ fuel →
      trimStart source = trimStart (cs ++ rest) → Before closers rest →
      readSum fuel source = .ok (expr, trimStart rest)
  | _, _, .single hterm, fuel, source, rest, hfuel, hsource, hrest => by
    obtain ⟨fuel, rfl⟩ := Nat.exists_eq_add_of_le' (show 2 ≤ fuel by omega)
    have hnone : AreMoreTerms [] [] := .none
    obtain ⟨middle, hread, hmiddle⟩ := hterm.reads fuel (by omega) hsource (hnone.before hrest)
    have hmore := readMoreTerms_none fuel hmiddle hrest
    simp only [readSum, hread, hmore]
  | _, _, .sum hfirst hothers hne, fuel, source, rest, hfuel, hsource, hrest => by
    obtain ⟨fuel, rfl⟩ := Nat.exists_eq_add_of_le' (show 2 ≤ fuel by omega)
    rw [List.length_append] at hfuel
    rw [List.append_assoc] at hsource
    obtain ⟨middle, hread, hmiddle⟩ := hfirst.reads fuel (by omega) hsource (hothers.before hrest)
    have hmore := hothers.reads (fuel + 1) (by omega) hmiddle hrest
    obtain ⟨next, others, rfl⟩ := List.exists_cons_of_ne_nil hne
    simp only [readSum, hread, hmore]

/-- The terms of a sum are read as long as plus signs come. -/
theorem AreMoreTerms.reads : ∀ {cs : List Char} {terms : List MapperExpr}, AreMoreTerms cs terms →
    ∀ (fuel : Nat) {source rest : List Char}, 4 * cs.length + 1 ≤ fuel →
      trimStart source = trimStart (cs ++ rest) → Before closers rest →
      readMoreTerms fuel source = .ok (terms, trimStart rest)
  | _, _, .none, fuel, source, rest, hfuel, hsource, hrest => by
    obtain ⟨fuel, rfl⟩ := Nat.exists_eq_add_of_le' (show 1 ≤ fuel by omega)
    exact readMoreTerms_none fuel hsource hrest
  | _, _, .more hplus hterm hterms, fuel, source, rest, hfuel, hsource, hrest => by
    have hlength := hplus.length_le
    rw [List.length_append, List.length_append] at hfuel
    rw [List.length_singleton] at hlength
    obtain ⟨fuel, rfl⟩ := Nat.exists_eq_add_of_le' (show 2 ≤ fuel by omega)
    rw [List.append_assoc, List.append_assoc] at hsource
    obtain ⟨middle, hread, hmiddle⟩ := hterm.reads fuel (by omega) rfl (hterms.before hrest)
    have hmore := hterms.reads (fuel + 1) (by omega) hmiddle hrest
    rw [readMoreTerms, eat_congr hsource, hplus.eat_append (by decide)]
    simp only [hread, hmore]

/-- A term is read up to what may follow it. -/
theorem IsTerm.reads : ∀ {cs : List Char} {expr : MapperExpr}, IsTerm cs expr →
    ∀ (fuel : Nat) {source rest : List Char}, 4 * cs.length ≤ fuel →
      trimStart source = trimStart (cs ++ rest) → Before ('+' :: closers) rest →
      ∃ rest', readTerm (fuel + 1) source = .ok (expr, rest') ∧ trimStart rest' = trimStart rest
  | _, _, .capture hindex h, fuel, source, rest, hfuel, hsource, hrest => by
    exact ⟨rest, readTerm_of_variable fuel (List.forall_mem_nil _) rfl hindex h hsource hrest, rfl⟩
  | _, _, .startOf hindex h, fuel, source, rest, hfuel, hsource, hrest => by
    exact ⟨rest, readTerm_of_variable fuel (List.all_eq_true.1 rfl) rfl hindex h hsource hrest, rfl⟩
  | _, _, .endOf hindex h, fuel, source, rest, hfuel, hsource, hrest => by
    exact ⟨rest, readTerm_of_variable fuel (List.all_eq_true.1 rfl) rfl hindex h hsource hrest, rfl⟩
  | _, _, .start h, fuel, source, rest, hfuel, hsource, hrest => by
    exact ⟨trimStart rest, readTerm_of_offset fuel (.inl ⟨rfl, rfl⟩) h hsource hrest,
      trimStart_trimStart rest⟩
  | _, _, .stop h, fuel, source, rest, hfuel, hsource, hrest => by
    exact ⟨trimStart rest, readTerm_of_offset fuel (.inr ⟨rfl, rfl⟩) h hsource hrest,
      trimStart_trimStart rest⟩
  | _, _, .str hquote hinner h, fuel, source, rest, hfuel, hsource, hrest => by
    exact ⟨rest, readTerm_of_string fuel hquote hinner h hsource, rfl⟩
  | _, _, .text hword hopening hclosing, fuel, source, rest, hfuel, hsource, hrest => by
    have hlength := hopening.length_le
    rw [List.length_append, List.length_append] at hfuel
    rw [List.length_singleton] at hlength
    obtain ⟨fuel, rfl⟩ := Nat.exists_eq_add_of_le' (show 1 ≤ fuel by omega)
    rw [List.append_assoc, List.append_assoc] at hsource
    obtain ⟨here, hread⟩ := readTerm_of_call (fuel + 1) (by decide) hword hopening hsource
    rw [readList_none fuel (.inl rfl) hclosing rfl] at hread
    exact ⟨rest, hread, rfl⟩
  | _, _, .list hopening hitems hclosing, fuel, source, rest, hfuel, hsource, hrest => by
    have hlength := hopening.length_le
    rw [List.length_append, List.length_append] at hfuel
    rw [List.length_singleton] at hlength
    have hlength' := hclosing.length_le
    rw [List.length_singleton] at hlength'
    rw [List.append_assoc, List.append_assoc, hopening.trimStart_append (by decide)] at hsource
    have hread := hitems.reads fuel (by omega) (.inr rfl) hclosing
      (rfl : trimStart (_ ++ (_ ++ rest)) = _)
    refine ⟨rest, ?_, rfl⟩
    simp only [readTerm_list hsource, List.nil_append, hread]
  | _, _, .node hname hother hword hopening harguments hclosing, fuel, source, rest, hfuel, hsource,
      hrest => by
    have hlength := hopening.length_le
    have hlength' := hclosing.length_le
    rw [List.length_singleton] at hlength hlength'
    rw [List.length_append, List.length_append, List.length_append] at hfuel
    rw [List.append_assoc, List.append_assoc, List.append_assoc] at hsource
    obtain ⟨here, hread⟩ := readTerm_of_call fuel hname hword hopening hsource
    rw [harguments.reads fuel (by omega) (.inl rfl) hclosing rfl] at hread
    exact ⟨rest, hread.trans (if_neg hother), rfl⟩
  | _, _, .parentheses hopening hexpr hclosing, fuel, source, rest, hfuel, hsource, hrest => by
    have hlength := hopening.length_le
    rw [List.length_append, List.length_append] at hfuel
    rw [List.length_singleton] at hlength
    rw [List.append_assoc, List.append_assoc, hopening.trimStart_append (by decide)] at hsource
    have hread := hexpr.reads fuel (by omega) rfl
      (hclosing.before (by decide) (by decide) rest)
    refine ⟨rest, ?_, rfl⟩
    simp only [readTerm_parentheses hsource, List.nil_append, hread, eat_trimStart,
      hclosing.eat_append (by decide)]

/-- A list is read with the symbol that closes it. -/
theorem AreItems.reads : ∀ {cs : List Char} {items : List MapperExpr}, AreItems cs items →
    ∀ (fuel : Nat) {closing : Char} {symbol rest source : List Char}, 4 * cs.length + 4 ≤ fuel →
      IsClosing closing → Spaced [closing] symbol →
      trimStart source = trimStart (cs ++ (symbol ++ rest)) →
      readList fuel closing source = .ok (items, rest)
  | _, _, .none, fuel, closing, symbol, rest, source, hfuel, hclosing, hsymbol, hsource => by
    obtain ⟨fuel, rfl⟩ := Nat.exists_eq_add_of_le' (show 1 ≤ fuel by omega)
    exact readList_none fuel hclosing hsymbol hsource
  | _, _, .some hitems, fuel, closing, symbol, rest, source, hfuel, hclosing, hsymbol, hsource => by
    obtain ⟨fuel, rfl⟩ := Nat.exists_eq_add_of_le' (show 1 ≤ fuel by omega)
    -- the first item begins with no closer, so the list is not empty
    obtain ⟨c, hc, hmem⟩ := hitems.head? (symbol ++ rest)
    have hne : c ≠ closing := fun h => hmem (h ▸ hclosing.mem_closers)
    rw [readList, eat_of_head? ⟨c, hsource ▸ hc, hne⟩]
    exact hitems.reads fuel (by omega) hclosing hsymbol ((trimStart_trimStart source).trans hsource)

/-- Items are read up to the symbol that closes them. -/
theorem AreSeparated.reads : ∀ {cs : List Char} {items : List MapperExpr}, AreSeparated cs items →
    ∀ (fuel : Nat) {closing : Char} {symbol rest source : List Char}, 4 * cs.length + 3 ≤ fuel →
      IsClosing closing → Spaced [closing] symbol →
      trimStart source = trimStart (cs ++ (symbol ++ rest)) →
      readItems fuel closing source = .ok (items, rest)
  | _, _, .last hitem, fuel, closing, symbol, rest, source, hfuel, hclosing, hsymbol, hsource => by
    obtain ⟨fuel, rfl⟩ := Nat.exists_eq_add_of_le' (show 1 ≤ fuel by omega)
    have hread := hitem.reads fuel (by omega) hsource
      (hsymbol.before hclosing.isBlank_eq hclosing.mem_closers rest)
    simp only [readItems, hread, eat_trimStart, hsymbol.eat_append hclosing.isBlank_eq]
  | _, _, .more hitem hcomma hitems, fuel, closing, symbol, rest, source, hfuel, hclosing, hsymbol,
      hsource => by
    obtain ⟨fuel, rfl⟩ := Nat.exists_eq_add_of_le' (show 1 ≤ fuel by omega)
    have hlength := hcomma.length_le
    rw [List.length_append, List.length_append] at hfuel
    rw [List.length_singleton] at hlength
    rw [List.append_assoc, List.append_assoc] at hsource
    have hread := hitem.reads fuel (by omega) hsource (hcomma.before (by decide) (by decide) _)
    have hlater := hitems.reads fuel (by omega) hclosing hsymbol
      (rfl : trimStart (_ ++ (_ ++ rest)) = _)
    simp only [readItems, hread, eat_trimStart, hcomma.eat_append (by decide), hlater,
      eat_of_head? ⟨',', hcomma.head? (by decide) _, hclosing.ne_comma⟩]

end

/-! ### Whole mappers -/

/-- The text that is left when a mistake is found begins at an offset. -/
theorem isOffset_of_suffix (h : rest <:+ cs) : IsOffset cs (size cs - size rest) := by
  obtain ⟨passed, rfl⟩ := h
  rw [size_append, Nat.add_sub_cancel_right]
  exact isOffset_iff.2 ⟨passed, rest, rfl, rfl⟩

/-- What is derived is read, with all of the text. -/
theorem parse_of_derives {code : String} {expr : MapperExpr} (h : Derives code.toList expr) :
    parse code = .ok expr := by
  obtain ⟨cs, blanks, hsum, hblanks, hcode⟩ := h
  have hend : trimStart blanks = [] := by
    rw [← List.append_nil blanks, trimStart_blanks hblanks]
    rfl
  have hbefore : Before closers blanks := by
    rw [Before, hend]
    exact nofun
  have hlength : cs.length ≤ code.toList.length := by
    rw [hcode, List.length_append]
    exact Nat.le_add_right ..
  have hread := hsum.reads (4 * code.toList.length + 4) (by omega)
    (congrArg trimStart hcode) hbefore
  rw [hend] at hread
  simp only [parse, hread]
  rfl

/-- The grammar derives what is read, and a mistake is somewhere in the text. -/
theorem parse_accounts (code : String) :
    match parse code with
    | .ok expr => Derives code.toList expr
    | .error error => IsOffset code.toList error.offset := by
  have hsum := (readersAccount (4 * code.toList.length + 4)).sum code.toList
  simp only [parse]
  generalize readSum (4 * code.toList.length + 4) code.toList = result at hsum ⊢
  rcases result with ⟨mistake, rest⟩ | ⟨expr, rest⟩
  · exact isOffset_of_suffix hsum
  · obtain ⟨cs, blanks, hderived, hblanks, hcode⟩ := hsum
    obtain ⟨blanks', hblanks', hrest⟩ := exists_blanks rest
    -- only white space may be left after the expression
    rcases htrim : trimStart rest with - | ⟨c, content⟩
    · rw [htrim, List.append_nil] at hrest
      simp only [htrim]
      exact ⟨cs, blanks ++ blanks', hderived, hblanks.append hblanks', by rw [hcode, hrest]⟩
    · have hsuffix : c :: content <:+ code.toList :=
        (htrim ▸ trimStart_suffix rest).trans
          (hcode ▸ (List.suffix_append ..).trans (List.suffix_append ..))
      simp only [htrim]
      exact isOffset_of_suffix hsuffix

/-- A mapper is read as an expression just when the grammar derives its text with that expression
as the tree, and otherwise the error is at an offset of the text. -/
theorem parse_eq_ok_iff_derives (code : String) :
    (∀ expr, parse code = .ok expr ↔ Derives code.toList expr) ∧
      ∀ error, parse code = .error error → IsOffset code.toList error.offset := by
  have haccounts := parse_accounts code
  refine ⟨fun expr => ⟨fun h => ?_, parse_of_derives⟩, fun error h => ?_⟩
  · rwa [h] at haccounts
  · rwa [h] at haccounts

end Peg.MapperExpr
