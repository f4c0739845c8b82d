/-
Peg/Proofs/Mapper/Soundness.lean

Whatever is read as a mapper expression is derived by its grammar.

Every reader accounts for the text it is given: what it has passed is derived
with the tree it gives, and an error is found at what was left of the text
(`Accounts`).  A reader stops at blanks or behind them, as it happens, so the
blanks between what it has passed and what it leaves are stated apart; the next
token takes them, since a derived text may always have more blanks before it.

The readers call one another with less fuel, so one step for each of them, with
all five in the hypothesis, makes an induction on the fuel.
-/
import Peg.Proofs.Mapper.Token

namespace Peg.MapperExpr

open Text

variable {blanks cs rest : List Char} {fuel : Nat}

/-! ### What the readers do -/

/-- A dollar sign begins a variable. -/
theorem readTerm_variable {cs' : List Char} (h : trimStart cs = '$' :: cs') :
    readTerm (fuel + 1) cs = readVariable cs' := by
  rw [readTerm, h]
  rfl

/-- A bracket begins a list, which goes on to the other bracket. -/
theorem readTerm_list {cs' : List Char} (h : trimStart cs = '[' :: cs') :
    readTerm (fuel + 1) cs = match readList fuel ']' cs' with
      | .error error => .error error
      | .ok (items, rest) => .ok (.list items, rest) := by
  rw [readTerm, h]
  rfl

/-- A parenthesis begins an expression that the other one has to close. -/
theorem readTerm_parentheses {cs' : List Char} (h : trimStart cs = '(' :: cs') :
    readTerm (fuel + 1) cs = match readSum fuel cs' with
      | .error error => .error error
      | .ok (expr, rest) =>
        match eat ')' rest with
        | (true, rest) => .ok (expr, rest)
        | (false, rest) => .error (.missingSymbol ')', rest) := by
  rw [readTerm, h]
  rfl

/-- Either kind of quotes begins a string. -/
theorem readTerm_string {quote : Char} (hquote : quote = '\'' ∨ quote = '"') {cs' : List Char}
    (h : trimStart cs = quote :: cs') :
    readTerm (fuel + 1) cs = match readString quote cs' with
      | some (inner, rest) => .ok (.str (String.ofList inner), rest)
      | none => .error (.unterminatedString, cs') := by
  rw [readTerm, h]
  rcases hquote with rfl | rfl
  · rfl
  · rfl

/-- Nothing else but a name begins a term, and the error is where the term should be. -/
theorem readTerm_other {c : Char} (hsymbol : c ≠ '$' ∧ c ≠ '[' ∧ c ≠ '(')
    (hquote : ¬ (c = '\'' ∨ c = '"')) (hname : isNameStart c = false) {cs' : List Char}
    (h : trimStart cs = c :: cs') :
    readTerm (fuel + 1) cs = .error (.missingExpression, c :: cs') := by
  rw [readTerm, h]
  split
  · rename_i heq
    cases heq
  · rename_i heq
    exact absurd (List.cons.inj heq).1 hsymbol.1
  · rename_i heq
    exact absurd (List.cons.inj heq).1 hsymbol.2.1
  · rename_i heq
    exact absurd (List.cons.inj heq).1 hsymbol.2.2
  · rename_i heq
    obtain ⟨rfl, rfl⟩ := List.cons.inj heq
    rw [if_neg (by simpa using hquote), if_neg (by simp [hname])]

/-- What a name stands for, without arguments or with them. -/
def readNamed (fuel : Nat) (name : List Char) (cs here : List Char) : Reader MapperExpr :=
  match eat '(' cs with
  | (false, rest) =>
    match String.ofList name with
    | "start" => .ok (.start, rest)
    | "end" => .ok (.stop, rest)
    | _ => .error (.unknownName (String.ofList name), here)
  | (true, rest) =>
    match readList fuel ')' rest with
    | .error error => .error error
    | .ok (arguments, rest) =>
      if String.ofList name = "text" then
        if arguments.isEmpty then .ok (.text, rest) else .error (.textWithArguments, here)
      else .ok (.node (String.ofList name) arguments, rest)

/-- A name is read as far as its characters go, and decides what the term is. -/
theorem readTerm_name {c : Char} (hc : isNameStart c = true) {cs' : List Char}
    (h : trimStart cs = c :: cs') :
    readTerm (fuel + 1) cs =
      readNamed fuel ((c :: cs').takeWhile isNameChar) (cs'.dropWhile isNameChar) (c :: cs') := by
  rw [readTerm, h]
  have hother : ∀ d, isNameStart d = false → c ≠ d := by
    rintro d hd rfl
    rw [hc] at hd
    cases hd
  split
  · rename_i heq
    cases heq
  · rename_i heq
    exact absurd (List.cons.inj heq).1 (hother '$' (by decide))
  · rename_i heq
    exact absurd (List.cons.inj heq).1 (hother '[' (by decide))
  · rename_i heq
    exact absurd (List.cons.inj heq).1 (hother '(' (by decide))
  · rename_i heq
    obtain ⟨rfl, rfl⟩ := List.cons.inj heq
    rw [if_neg (by simp [hother '\'' (by decide), hother '"' (by decide)]), if_pos hc]
    rfl

/-! ### Whatever is read is derived -/

/-- A reader accounts for its text: what it has passed, up to blanks, is what its result was
derived from, and an error is at an end of the text. -/
def Accounts {α : Type} (Derived : List Char → α → Prop) (cs : List Char) :
    Except (Mistake × List Char) (α × List Char) → Prop
  | .ok (value, rest) =>
    ∃ read blanks, Derived read value ∧ Blanks blanks ∧ cs = read ++ (blanks ++ rest)
  | .error (_, rest) => rest <:+ cs

/-- Items and the symbol that closes them. -/
def AreClosed (Items : List Char → List MapperExpr → Prop) (closing : Char) (cs : List Char)
    (items : List MapperExpr) : Prop :=
  ∃ inner symbol, Items inner items ∧ Spaced [closing] symbol ∧ cs = inner ++ symbol

/-- A symbol is taken with the blanks before it, or nothing is. -/
theorem eat_suffix {symbol : Char} {found : Bool} (h : eat symbol cs = (found, rest)) :
    rest <:+ cs := by
  cases found with
  | true =>
    obtain ⟨opening, -, rfl⟩ := spaced_of_eat h
    exact List.suffix_append ..
  | false =>
    rw [rest_of_eat h]
    exact trimStart_suffix cs

/-- A word after blanks at the start of a text. -/
theorem exists_spaced {word : List Char} (h : trimStart cs = word ++ rest) :
    ∃ passed, Spaced word passed ∧ cs = passed ++ rest := by
  obtain ⟨blanks, hblanks, hcs⟩ := exists_blanks cs
  exact ⟨blanks ++ word, ⟨blanks, hblanks, rfl⟩, by rw [hcs, h, List.append_assoc]⟩

/-- There may be blanks before further terms, if there are any. -/
theorem AreMoreTerms.of_blanks (hblanks : Blanks blanks) {terms : List MapperExpr}
    (h : AreMoreTerms cs terms) (hne : terms ≠ []) : AreMoreTerms (blanks ++ cs) terms := by
  cases h with
  | none => exact absurd rfl hne
  | more hplus hterm hterms =>
    rw [← List.append_assoc]
    exact .more (hplus.of_blanks hblanks) hterm hterms

/-- There may be blanks before a term. -/
theorem IsTerm.of_blanks (hblanks : Blanks blanks) {expr : MapperExpr} (h : IsTerm cs expr) :
    IsTerm (blanks ++ cs) expr := by
  cases h with
  | capture hindex h => exact .capture hindex (h.of_blanks hblanks)
  | startOf hindex h => exact .startOf hindex (h.of_blanks hblanks)
  | endOf hindex h => exact .endOf hindex (h.of_blanks hblanks)
  | start h => exact .start (h.of_blanks hblanks)
  | stop h => exact .stop (h.of_blanks hblanks)
  | str hquote hinner h => exact .str hquote hinner (h.of_blanks hblanks)
  | text hword hopening hclosing =>
    rw [← List.append_assoc]
    exact .text (hword.of_blanks hblanks) hopening hclosing
  | list hopening hitems hclosing =>
    rw [← List.append_assoc]
    exact .list (hopening.of_blanks hblanks) hitems hclosing
  | node hname hother hword hopening harguments hclosing =>
    rw [← List.append_assoc]
    exact .node hname hother (hword.of_blanks hblanks) hopening harguments hclosing
  | parentheses hopening hexpr hclosing =>
    rw [← List.append_assoc]
    exact .parentheses (hopening.of_blanks hblanks) hexpr hclosing

/-- There may be blanks before a sum, as before its first term. -/
theorem IsSum.of_blanks (hblanks : Blanks blanks) {expr : MapperExpr} (h : IsSum cs expr) :
    IsSum (blanks ++ cs) expr := by
  cases h with
  | single hterm => exact .single (hterm.of_blanks hblanks)
  | sum hfirst hothers hne =>
    rw [← List.append_assoc]
    exact .sum (hfirst.of_blanks hblanks) hothers hne

/-- There may be blanks before the first of several items. -/
theorem AreSeparated.of_blanks (hblanks : Blanks blanks) {items : List MapperExpr}
    (h : AreSeparated cs items) : AreSeparated (blanks ++ cs) items := by
  cases h with
  | last hitem => exact .last (hitem.of_blanks hblanks)
  | more hitem hcomma hitems =>
    rw [← List.append_assoc]
    exact .more (hitem.of_blanks hblanks) hcomma hitems

/-- What comes after a term.  The blanks after the term belong to the first plus sign, if there is
one. -/
theorem exists_moreTerms (hblanks : Blanks blanks) {terms : List MapperExpr}
    (h : Accounts AreMoreTerms cs (.ok (terms, rest))) :
    ∃ read blanks', AreMoreTerms read terms ∧ Blanks blanks' ∧
      blanks ++ cs = read ++ (blanks' ++ rest) := by
  obtain ⟨read, blanks', hread, hblanks', rfl⟩ := h
  cases terms with
  | nil =>
    cases hread
    exact ⟨[], blanks ++ blanks', .none, hblanks.append hblanks', by simp⟩
  | cons term terms =>
    exact ⟨blanks ++ read, blanks', hread.of_blanks hblanks (List.cons_ne_nil _ _), hblanks',
      by simp⟩

/-- What is read after the dollar sign is a capture, or an error at an end of the text. -/
theorem readVariable_accounts {cs' : List Char} (h : trimStart cs = '$' :: cs') :
    Accounts IsTerm cs (readVariable cs') := by
  rcases hread : readVariable cs' with ⟨mistake, rest⟩ | ⟨expr, rest⟩
  · have hsuffix := suffix_of_readVariable hread
    exact (hsuffix.trans (List.suffix_cons '$' cs')).trans (h ▸ trimStart_suffix cs)
  · obtain ⟨letters, digits, make, index, hmake, hindex, rfl, rfl⟩ :=
      variable_of_readVariable hread
    rw [← List.append_assoc, ← List.cons_append] at h
    obtain ⟨passed, hpassed, rfl⟩ := exists_spaced h
    exact ⟨passed, [], isTerm_variable hmake hindex hpassed, blanks_nil, rfl⟩

/-- A name that is read is an identifier. -/
theorem isIdentifier_ofList {c : Char} {word : List Char} (hc : isNameStart c = true)
    (hword : ∀ c ∈ word, isNameChar c = true) : IsIdentifier (String.ofList (c :: word)) :=
  ⟨c, word, String.toList_ofList, hc, hword⟩

/-- What a name may begin with may also go on with. -/
theorem isNameChar_of_isNameStart {c : Char} (hc : isNameStart c = true) :
    isNameChar c = true := by
  rw [isNameStart, Bool.or_eq_true] at hc
  rw [isNameChar, Char.isAlphanum, Bool.or_eq_true, Bool.or_eq_true]
  exact hc.imp_left .inl

/-- The readers account for their texts. -/
structure ReadersAccount (fuel : Nat) : Prop where
  sum (cs : List Char) : Accounts IsSum cs (readSum fuel cs)
  moreTerms (cs : List Char) : Accounts AreMoreTerms cs (readMoreTerms fuel cs)
  term (cs : List Char) : Accounts IsTerm cs (readTerm fuel cs)
  list (closing : Char) (cs : List Char) :
    Accounts (AreClosed AreItems closing) cs (readList fuel closing cs)
  items (closing : Char) (cs : List Char) :
    Accounts (AreClosed AreSeparated closing) cs (readItems fuel closing cs)

namespace ReadersAccount

variable {opening : Char} {cs' : List Char}

/-- A sum is a term and what is added to it. -/
theorem sum_step (h : ReadersAccount fuel) (cs : List Char) :
    Accounts IsSum cs (readSum (fuel + 1) cs) := by
  rw [readSum]
  have hterm := h.term cs
  generalize readTerm fuel cs = result at hterm ⊢
  rcases result with ⟨mistake, middle⟩ | ⟨term, middle⟩
  · exact hterm
  · obtain ⟨read, blanks, hread, hblanks, rfl⟩ := hterm
    have hmore := h.moreTerms middle
    dsimp only
    generalize readMoreTerms fuel middle = result at hmore ⊢
    rcases result with ⟨mistake, rest⟩ | ⟨terms, rest⟩
    · exact (List.IsSuffix.trans hmore (List.suffix_append ..)).trans (List.suffix_append ..)
    · obtain ⟨read', blanks', hread', hblanks', hmiddle⟩ := exists_moreTerms hblanks hmore
      rw [hmiddle]
      cases terms with
      | nil =>
        cases hread'
        exact ⟨read, blanks', .single hread, hblanks', rfl⟩
      | cons next terms =>
        exact ⟨read ++ read', blanks', .sum hread hread' (List.cons_ne_nil _ _), hblanks',
          by rw [List.append_assoc]⟩

/-- Further terms come after a plus each. -/
theorem moreTerms_step (h : ReadersAccount fuel) (cs : List Char) :
    Accounts AreMoreTerms cs (readMoreTerms (fuel + 1) cs) := by
  rw [readMoreTerms]
  rcases heat : eat '+' cs with ⟨_ | _, middle⟩
  · obtain ⟨blanks, hblanks, hcs⟩ := exists_blanks cs
    rw [← rest_of_eat heat] at hcs
    exact ⟨[], blanks, .none, hblanks, hcs⟩
  · obtain ⟨plus, hplus, rfl⟩ := spaced_of_eat heat
    have hterm := h.term middle
    dsimp only
    generalize readTerm fuel middle = result at hterm ⊢
    rcases result with ⟨mistake, middle⟩ | ⟨term, middle⟩
    · exact List.IsSuffix.trans hterm (List.suffix_append ..)
    · obtain ⟨read, blanks, hread, hblanks, rfl⟩ := hterm
      have hmore := h.moreTerms middle
      dsimp only
      generalize readMoreTerms fuel middle = result at hmore ⊢
      rcases result with ⟨mistake, rest⟩ | ⟨terms, rest⟩
      · exact ((List.IsSuffix.trans hmore (List.suffix_append ..)).trans
          (List.suffix_append ..)).trans (List.suffix_append ..)
      · obtain ⟨read', blanks', hread', hblanks', hmiddle⟩ := exists_moreTerms hblanks hmore
        rw [hmiddle]
        exact ⟨plus ++ (read ++ read'), blanks', .more hplus hread hread', hblanks', by simp⟩

/-- A list is empty or has a first item, and is closed. -/
theorem list_step (h : ReadersAccount fuel) (closing : Char) (cs : List Char) :
    Accounts (AreClosed AreItems closing) cs (readList (fuel + 1) closing cs) := by
  rw [readList]
  rcases heat : eat closing cs with ⟨_ | _, middle⟩
  · obtain ⟨blanks, hblanks, hcs⟩ := exists_blanks cs
    rw [← rest_of_eat heat] at hcs
    have hitems := h.items closing middle
    dsimp only
    generalize readItems fuel closing middle = result at hitems ⊢
    rcases result with ⟨mistake, rest⟩ | ⟨items, rest⟩
    · exact List.IsSuffix.trans hitems (hcs ▸ List.suffix_append ..)
    · obtain ⟨_, blanks', ⟨inner, symbol, hinner, hsymbol, rfl⟩, hblanks', rfl⟩ := hitems
      rw [hcs]
      exact ⟨blanks ++ inner ++ symbol, blanks',
        ⟨blanks ++ inner, symbol, .some (hinner.of_blanks hblanks), hsymbol, rfl⟩, hblanks',
        by simp⟩
  · obtain ⟨symbol, hsymbol, rfl⟩ := spaced_of_eat heat
    exact ⟨symbol, [], ⟨[], symbol, .none, hsymbol, rfl⟩, blanks_nil, rfl⟩

/-- After an item there is a comma or the closing bracket. -/
theorem items_step (h : ReadersAccount fuel) (closing : Char) (cs : List Char) :
    Accounts (AreClosed AreSeparated closing) cs (readItems (fuel + 1) closing cs) := by
  rw [readItems]
  have hsum := h.sum cs
  generalize readSum fuel cs = result at hsum ⊢
  rcases result with ⟨mistake, middle⟩ | ⟨item, middle⟩
  · exact hsum
  · obtain ⟨read, blanks, hread, hblanks, rfl⟩ := hsum
    have hlater : middle <:+ read ++ (blanks ++ middle) :=
      (List.suffix_append ..).trans (List.suffix_append ..)
    dsimp only
    rcases heat : eat closing middle with ⟨_ | _, next⟩
    · have hnext := (eat_suffix heat).trans hlater
      obtain rfl := rest_of_eat heat
      dsimp only
      -- blanks before the comma are skipped once more, which changes nothing
      rcases hcomma : eat ',' (trimStart middle) with ⟨_ | _, later⟩
      · exact (eat_suffix hcomma).trans hnext
      · rw [eat_trimStart] at hcomma
        obtain ⟨comma, hspaced, rfl⟩ := spaced_of_eat hcomma
        have hitems := h.items closing later
        dsimp only
        generalize readItems fuel closing later = result at hitems ⊢
        rcases result with ⟨mistake, rest⟩ | ⟨items, rest⟩
        · exact (List.IsSuffix.trans hitems (List.suffix_append ..)).trans hlater
        · obtain ⟨_, blanks', ⟨inner, symbol, hinner, hsymbol, rfl⟩, hblanks', rfl⟩ := hitems
          refine ⟨read ++ (blanks ++ comma ++ inner) ++ symbol, blanks', ⟨_, symbol,
            .more hread (hspaced.of_blanks hblanks) hinner, hsymbol, rfl⟩, hblanks', by simp⟩
    · obtain ⟨symbol, hsymbol, rfl⟩ := spaced_of_eat heat
      exact ⟨read ++ (blanks ++ symbol), [],
        ⟨read, blanks ++ symbol, .last hread, hsymbol.of_blanks hblanks, rfl⟩, blanks_nil,
        by simp⟩

/-! #### Terms -/

/-- A name is one of the functions that have a meaning, or an error. -/
theorem named_step (h : ReadersAccount fuel) {c : Char} (hc : isNameStart c = true)
    {cs cs' : List Char} (htrim : trimStart cs = c :: cs') :
    Accounts IsTerm cs (readNamed fuel ((c :: cs').takeWhile isNameChar)
      (cs'.dropWhile isNameChar) (c :: cs')) := by
  have hsuffix : c :: cs' <:+ cs := htrim ▸ trimStart_suffix cs
  have hcs' := List.takeWhile_append_dropWhile (p := isNameChar) (l := cs')
  have hword : ∀ c ∈ cs'.takeWhile isNameChar, isNameChar c = true :=
    fun _ hc => List.mem_takeWhile_imp hc
  rw [List.takeWhile_cons_of_pos (isNameChar_of_isNameStart hc)]
  generalize cs'.takeWhile isNameChar = word at hcs' hword ⊢
  generalize cs'.dropWhile isNameChar = after at hcs' ⊢
  obtain rfl := hcs'
  have hname := isIdentifier_ofList hc hword
  rw [← List.cons_append] at htrim hsuffix ⊢
  generalize c :: word = word at htrim hsuffix hname ⊢
  obtain ⟨passed, hpassed, rfl⟩ := exists_spaced htrim
  have htoList : ∀ {name : String}, String.ofList word = name → Spaced name.toList passed := by
    rintro _ rfl
    rwa [String.toList_ofList]
  rw [readNamed]
  rcases heat : eat '(' after with ⟨_ | _, middle⟩
  · -- without arguments only the two offsets have a name
    obtain ⟨blanks, hblanks, hafter⟩ := exists_blanks after
    rw [← rest_of_eat heat] at hafter
    dsimp only
    split
    · rename_i hstart
      exact ⟨passed, blanks, .start (htoList hstart), hblanks, by rw [hafter]⟩
    · rename_i hend
      exact ⟨passed, blanks, .stop (htoList hend), hblanks, by rw [hafter]⟩
    · exact hsuffix
  · obtain ⟨opening, hopening, rfl⟩ := spaced_of_eat heat
    have hlist := h.list ')' middle
    dsimp only
    generalize readList fuel ')' middle = result at hlist ⊢
    rcases result with ⟨mistake, rest⟩ | ⟨arguments, rest⟩
    · exact (List.IsSuffix.trans hlist (List.suffix_append ..)).trans (List.suffix_append ..)
    · obtain ⟨_, blanks, ⟨inner, closing, hinner, hclosing, rfl⟩, hblanks, rfl⟩ := hlist
      dsimp only
      split
      · rename_i htext
        split
        · rename_i hempty
          obtain rfl := List.isEmpty_iff.1 hempty
          cases hinner with
          | none =>
            exact ⟨passed ++ (opening ++ closing), blanks, .text (htoList htext) hopening hclosing,
              hblanks, by simp⟩
          | some hitems => cases hitems
        · exact hsuffix
      · rename_i hother
        exact ⟨passed ++ (opening ++ (inner ++ closing)), blanks,
          .node hname hother (htoList rfl) hopening hinner hclosing, hblanks, by simp⟩

/-- A list in brackets is a term. -/
theorem listTerm_step (h : ReadersAccount fuel) (htrim : trimStart cs = '[' :: cs') :
    Accounts IsTerm cs (readTerm (fuel + 1) cs) := by
  rw [readTerm_list htrim]
  rw [← List.singleton_append] at htrim
  obtain ⟨opening, hopening, rfl⟩ := exists_spaced htrim
  have hlist := h.list ']' cs'
  generalize readList fuel ']' cs' = result at hlist ⊢
  rcases result with ⟨mistake, rest⟩ | ⟨items, rest⟩
  · exact List.IsSuffix.trans hlist (List.suffix_append ..)
  · obtain ⟨_, blanks, ⟨inner, closing, hinner, hclosing, rfl⟩, hblanks, rfl⟩ := hlist
    exact ⟨opening ++ (inner ++ closing), blanks, .list hopening hinner hclosing, hblanks, by simp⟩

/-- A sum in parentheses is a term. -/
theorem parentheses_step (h : ReadersAccount fuel) (htrim : trimStart cs = '(' :: cs') :
    Accounts IsTerm cs (readTerm (fuel + 1) cs) := by
  rw [readTerm_parentheses htrim]
  rw [← List.singleton_append] at htrim
  obtain ⟨opening, hopening, rfl⟩ := exists_spaced htrim
  have hsum := h.sum cs'
  generalize readSum fuel cs' = result at hsum ⊢
  rcases result with ⟨mistake, rest⟩ | ⟨expr, middle⟩
  · exact List.IsSuffix.trans hsum (List.suffix_append ..)
  · obtain ⟨inner, blanks, hinner, hblanks, rfl⟩ := hsum
    dsimp only
    rcases heat : eat ')' middle with ⟨_ | _, rest⟩
    · exact (((eat_suffix heat).trans (List.suffix_append ..)).trans
        (List.suffix_append ..)).trans (List.suffix_append ..)
    · obtain ⟨closing, hclosing, rfl⟩ := spaced_of_eat heat
      exact ⟨opening ++ (inner ++ (blanks ++ closing)), [],
        .parentheses hopening hinner (hclosing.of_blanks hblanks), blanks_nil, by simp⟩

/-- A string is a term. -/
theorem string_step {quote : Char} (hquote : quote = '\'' ∨ quote = '"')
    (htrim : trimStart cs = quote :: cs') : Accounts IsTerm cs (readTerm (fuel + 1) cs) := by
  rw [readTerm_string hquote htrim]
  have hbackslash : quote ≠ '\\' := by
    rcases hquote with rfl | rfl
    · decide
    · decide
  rcases hread : readString quote cs' with - | ⟨text, rest⟩
  · exact (List.suffix_cons quote cs').trans (htrim ▸ trimStart_suffix cs)
  · obtain ⟨inner, hinner, rfl⟩ := spells_of_readString hbackslash hread
    have htrim : trimStart cs = quote :: (inner ++ [quote]) ++ rest := by simp [htrim]
    obtain ⟨passed, hpassed, rfl⟩ := exists_spaced htrim
    exact ⟨passed, [], .str hquote hinner hpassed, blanks_nil, rfl⟩

/-- The first character tells which of these a term is. -/
theorem term_step (h : ReadersAccount fuel) (cs : List Char) :
    Accounts IsTerm cs (readTerm (fuel + 1) cs) := by
  rcases htrim : trimStart cs with - | ⟨c, cs'⟩
  · rw [readTerm, htrim]
    exact List.nil_suffix
  by_cases hquote : c = '\'' ∨ c = '"'
  · exact string_step hquote htrim
  by_cases hname : isNameStart c = true
  · rw [readTerm_name hname htrim]
    exact h.named_step hname htrim
  by_cases hsymbol : c ≠ '$' ∧ c ≠ '[' ∧ c ≠ '('
  · rw [readTerm_other hsymbol hquote (by simpa using hname) htrim]
    exact htrim ▸ trimStart_suffix cs
  · -- one of the three symbols that open a term
    have hopening : c = '$' ∨ c = '[' ∨ c = '(' := by tauto
    rcases hopening with rfl | rfl | rfl
    · rw [readTerm_variable htrim]
      exact readVariable_accounts htrim
    · exact h.listTerm_step htrim
    · exact h.parentheses_step htrim

end ReadersAccount

/-- By induction on the fuel all readers together account for what they read. -/
theorem readersAccount (fuel : Nat) : ReadersAccount fuel := by
  induction fuel with
  | zero =>
    exact ⟨List.suffix_refl, List.suffix_refl, List.suffix_refl, fun _ => List.suffix_refl,
      fun _ => List.suffix_refl⟩
  | succ fuel ih =>
    exact ⟨ih.sum_step, ih.moreTerms_step, ih.term_step, ih.list_step, ih.items_step⟩

end Peg.MapperExpr
