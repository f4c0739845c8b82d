/-
Peg/Proofs/Regex/Brackets.lean

Bracketed classes are read without looking past a parenthesis.

Inside brackets a parenthesis is a character like others, so a class that is
read before the parenthesis is closed before it.  Two readers look ahead.  A
class named between colons is no such class if anything is missing; but its
name is made of letters, so nothing that comes after the parenthesis can
complete it.  And a dash opens a range unless a dash or a bracket comes next,
wherever that is:

    [a-#)
    -]

In the verbose style the parenthesis is in a comment here and the dash is a
character, while at an end of the text behind the dash there is nothing to
read.  But then the dash is read next, and the comment with it.
-/
import Peg.Proofs.Regex.Escape

namespace Peg.Regex

open Text

variable {flags : Flags} {cs rest others stop : List Char} {cls : OpenClass}
  {outer : List OpenClass}

/-! ### The beginning of a class -/

theorem skipDashes_dash (flags : Flags) (fuel : Nat) (found : Bool) (cs : List Char) :
    skipDashes flags (fuel + 1) found ('-' :: cs) = skipDashes flags fuel true (flags.skip cs) :=
  rfl

/-- Dashes are skipped up to the first other character. -/
theorem skipDashes_other (flags : Flags) (fuel : Nat) (found : Bool)
    (h : cs.head? ≠ some '-') : skipDashes flags fuel found cs = (found, cs) := by
  rw [skipDashes.eq_def]
  split
  · exact absurd rfl h
  · rfl

/-- One step of the skipping, as a choice between a dash and anything else. -/
theorem skipDashes_succ (flags : Flags) (fuel : Nat) (found : Bool) (cs : List Char) :
    skipDashes flags (fuel + 1) found cs =
      onHead '-' (fun cs => skipDashes flags fuel true (flags.skip cs))
        (fun cs => (found, cs)) cs := by
  rcases head_cases '-' cs with ⟨cs, rfl⟩ | hcs
  · rw [onHead_cons_self, skipDashes_dash]
  · rw [onHead_of_ne _ _ hcs, skipDashes_other flags _ found hcs]

/-- There are no more dashes than characters. -/
theorem skipDashes_fuel {fuel fuel' : Nat} {found : Bool} (h : cs.length ≤ fuel)
    (h' : cs.length ≤ fuel') :
    skipDashes flags fuel found cs = skipDashes flags fuel' found cs := by
  induction fuel generalizing fuel' found cs with
  | zero =>
    obtain rfl := List.eq_nil_of_length_eq_zero (Nat.le_zero.1 h)
    have hnil : ([] : List Char).head? ≠ some '-' := nofun
    rw [skipDashes_other flags _ found hnil, skipDashes_other flags _ found hnil]
  | succ fuel ih =>
    rcases head_cases '-' cs with ⟨cs, rfl⟩ | hcs
    · obtain ⟨fuel', rfl⟩ := Nat.exists_eq_add_of_le' (Nat.one_le_of_lt h')
      have hskip := (flags.skip_suffix cs).length_le
      rw [List.length_cons] at h h'
      rw [skipDashes_dash, skipDashes_dash]
      exact ih (by omega) (by omega)
    · rw [skipDashes_other flags _ found hcs, skipDashes_other flags _ found hcs]

/-- The skipping stops at a parenthesis, which is no dash. -/
theorem steady_skipDashes (flags : Flags) (fuel : Nat) (found : Bool) :
    Steady fun cs => some (skipDashes flags fuel found cs) := by
  induction fuel generalizing found with
  | zero =>
    simp only [skipDashes]
    exact steady_some found
  | succ fuel ih =>
    have heq : (fun cs => some (skipDashes flags (fuel + 1) found cs)) =
        onHead '-' (fun cs => some (skipDashes flags fuel true (flags.skip cs)))
          fun cs => some (found, cs) := by
      funext cs
      rw [skipDashes_succ]
      rcases head_cases '-' cs with ⟨cs, rfl⟩ | hcs
      · rw [onHead_cons_self, onHead_cons_self]
      · rw [onHead_of_ne _ _ hcs, onHead_of_ne _ _ hcs]
    rw [heq]
    exact .onHead (by decide) ((ih true).skip flags) (steady_some found)

/-- The class that begins after a negation or none, given whether dashes stand there. -/
def openAfter (flags : Flags) (negated found : Bool) (cs : List Char) :
    Option (OpenClass × List Char) :=
  if found then some (⟨negated, .single '-', none⟩, cs)
  else onHead ']' (fun cs => some (⟨negated, .single ']', none⟩, flags.skip cs))
    (fun cs => some (⟨negated, .none, none⟩, cs)) cs

/-- What comes after the dashes is read like the definition says. -/
theorem openAfter_skipDashes (flags : Flags) (negated : Bool) (cs : List Char) :
    openAfter flags negated (skipDashes flags cs.length false cs).1
        (skipDashes flags cs.length false cs).2 =
      some (match skipDashes flags cs.length false cs with
        | (true, cs) => (⟨negated, .single '-', none⟩, cs)
        | (false, ']' :: cs) => (⟨negated, .single ']', none⟩, flags.skip cs)
        | (false, cs) => (⟨negated, .none, none⟩, cs)) := by
  rcases skipDashes flags cs.length false cs with ⟨found, rest⟩
  cases found with
  | true => rfl
  | false =>
    rw [openAfter, if_neg Bool.false_ne_true]
    rcases head_cases ']' rest with ⟨rest, rfl⟩ | hbracket
    · rw [onHead_cons_self]
      rfl
    · dsimp only
      rw [onHead_of_ne _ _ hbracket]
      split
      · rename_i heq
        cases heq
      · rename_i heq
        cases heq
        exact absurd rfl hbracket
      · rename_i heq
        cases heq
        rfl

/-- The beginning of a bracketed class in three parts: a negation, dashes and what is after them. -/
theorem openClass_eq (flags : Flags) (cs : List Char) : some (openClass flags cs) =
    (onHead '^' (fun cs => some (true, flags.skip cs)) (fun cs => some (false, cs))
      (flags.skip cs)).bind fun read =>
        (some (skipDashes flags read.2.length false read.2)).bind fun dashes =>
          openAfter flags read.1 dashes.1 dashes.2 := by
  rw [openClass]
  rcases head_cases '^' (flags.skip cs) with ⟨inside, hinside⟩ | hcs
  · rw [hinside, onHead_cons_self]
    exact (openAfter_skipDashes flags true (flags.skip inside)).symm
  · rw [onHead_of_ne _ _ hcs]
    split
    rename_i heq
    split at heq
    · rename_i hhead
      exact absurd (congrArg List.head? hhead) hcs
    · cases heq
      exact (openAfter_skipDashes flags false (flags.skip cs)).symm

/-- A closing bracket is all that the beginning of a class looks for. -/
theorem steady_openClass (flags : Flags) : Steady fun cs => some (openClass flags cs) := by
  have hafter : ∀ negated found, Steady (openAfter flags negated found) := by
    intro negated found
    cases found with
    | true => exact steady_some _
    | false => exact .onHead (by decide) ((steady_some _).skip flags) (steady_some _)
  have hdashes : Steady fun cs => some (skipDashes flags cs.length false cs) :=
    .of_fuel (fun fuel => steady_skipDashes flags fuel false)
      fun _ cs h => congrArg some (skipDashes_fuel h.le cs.length.le_refl)
  rw [funext (openClass_eq flags)]
  have hnegation : Steady (onHead '^' (fun cs => some (true, flags.skip cs))
      fun cs => some (false, cs)) :=
    .onHead (by decide) ((steady_some true).skip flags) (steady_some false)
  exact (hnegation.skip flags).bind fun negated => hdashes.bind (hafter negated)

/-! ### Named classes -/

/-- The names of classes consist of letters. -/
theorem isAlpha_of_posixClass? {name : List Char} {set : CharSet}
    (h : posixClass? (String.ofList name) = some set) : ∀ c ∈ name, c.isAlpha = true := by
  rw [← String.toList_ofList (l := name), ← List.all_eq_true]
  generalize String.ofList name = string at h
  unfold posixClass? at h
  split at h
  all_goals first | rfl | cases h

/-- The set for a name between colons. -/
def posixSet? (flags : Flags) (negated : Bool) (name : List Char) : Option CharSet :=
  (posixClass? (String.ofList name)).bind fun set =>
    if negated then flags.complement? set else some set

/-- So they hold no parenthesis, negated or not. -/
theorem isAlpha_of_posixSet? {negated : Bool} {name : List Char} {set : CharSet}
    (h : posixSet? flags negated name = some set) : ∀ c ∈ name, c.isAlpha = true := by
  obtain ⟨set, hset, -⟩ := Option.bind_eq_some_iff.1 h
  exact isAlpha_of_posixClass? hset

/-- Read a name and the colon and the bracket after it. -/
def posixAfter? (flags : Flags) (negated : Bool) (cs : List Char) :
    Option (CharSet × List Char) :=
  (upTo? ':' cs).bind fun read =>
    onHead ']' (fun rest => (posixSet? flags negated read.1).map (·, rest)) (fun _ => none) read.2

/-- The name is read up to the colon, and a bracket has to come after that. -/
theorem posixAfter?_eq (flags : Flags) (negated : Bool) (cs : List Char) :
    posixAfter? flags negated cs = match cs.drop (cs.takeWhile (· != ':')).length with
      | ':' :: ']' :: rest =>
        match posixClass? (String.ofList (cs.takeWhile (· != ':'))) with
        | some set =>
          if negated then (flags.complement? set).map (·, rest) else some (set, rest)
        | none => none
      | _ => none := by
  rw [posixAfter?]
  rcases hread : upTo? ':' cs with - | ⟨name, after⟩
  · rw [drop_of_upTo?_eq_none hread]
    rfl
  · obtain ⟨hname, hdrop⟩ := takeWhile_of_upTo? hread
    rw [hname, hdrop, Option.bind_some]
    rcases head_cases ']' after with ⟨rest, rfl⟩ | hhead
    · simp only [onHead_cons_self, posixSet?]
      rcases posixClass? (String.ofList name) with - | set
      · rfl
      · cases negated <;> rfl
    · dsimp only
      rw [onHead_of_ne _ _ hhead]
      split
      · rename_i rest heq
        cases heq
        exact absurd rfl hhead
      · rfl

/-- A class that is named between colons begins with a colon, perhaps with a negation. -/
theorem parsePosix?_eq (flags : Flags) : parsePosix? flags =
    onHead ':' (onHead '^' (posixAfter? flags true) (posixAfter? flags false)) fun _ => none := by
  funext cs
  rcases head_cases ':' cs with ⟨cs, rfl⟩ | hcolon
  · rw [onHead_cons_self]
    rcases head_cases '^' cs with ⟨cs, rfl⟩ | hnegated
    · rw [onHead_cons_self]
      exact (posixAfter?_eq flags true cs).symm
    · have hplain : ∀ inside, cs = '^' :: inside → False := by
        rintro inside rfl
        exact hnegated rfl
      rw [onHead_of_ne _ _ hnegated, posixAfter?_eq]
      exact parsePosix?.eq_2 flags cs hplain
  · rw [onHead_of_ne _ _ hcolon, parsePosix?.eq_def]
    split
    · exact absurd rfl hcolon
    · rfl

/-- What has been read, exactly: the name, a colon and a bracket. -/
theorem posixAfter?_eq_some_iff {negated : Bool} {set : CharSet} :
    posixAfter? flags negated cs = some (set, rest) ↔
      ∃ name, cs = name ++ ':' :: ']' :: rest ∧ posixSet? flags negated name = some set := by
  constructor
  · intro h
    obtain ⟨⟨name, after⟩, hname, h⟩ := Option.bind_eq_some_iff.1 h
    rcases head_cases ']' after with ⟨after, rfl⟩ | hafter
    · rw [onHead_cons_self] at h
      obtain ⟨set, hset, heq⟩ := Option.map_eq_some_iff.1 h
      cases heq
      exact ⟨name, (upTo?_eq_some_iff.1 hname).1, hset⟩
    · rw [onHead_of_ne _ _ hafter] at h
      cases h
  · rintro ⟨name, rfl, hset⟩
    have hcolon : ':' ∉ name := by
      intro hmem
      exact absurd (isAlpha_of_posixSet? hset ':' hmem) (by decide)
    rw [posixAfter?, upTo?_eq_some_iff.2 ⟨rfl, hcolon⟩, Option.bind_some]
    dsimp only
    rw [onHead_cons_self, hset]
    rfl

/-- The text of a class that is named between colons, from the first colon. -/
def posixText (negated : Bool) (name : List Char) : List Char :=
  ':' :: (if negated then ['^'] else []) ++ name ++ [':', ']']

/-- A class is read from its text and from no other. -/
theorem parsePosix?_eq_some_iff {set : CharSet} :
    parsePosix? flags cs = some (set, rest) ↔
      ∃ negated name, cs = posixText negated name ++ rest ∧
        posixSet? flags negated name = some set := by
  rw [parsePosix?_eq]
  constructor
  · intro h
    rcases head_cases ':' cs with ⟨cs, rfl⟩ | hcolon
    · rw [onHead_cons_self] at h
      rcases head_cases '^' cs with ⟨cs, rfl⟩ | hnegated
      · rw [onHead_cons_self] at h
        obtain ⟨name, rfl, hset⟩ := posixAfter?_eq_some_iff.1 h
        exact ⟨true, name, by simp [posixText], hset⟩
      · rw [onHead_of_ne _ _ hnegated] at h
        obtain ⟨name, rfl, hset⟩ := posixAfter?_eq_some_iff.1 h
        exact ⟨false, name, by simp [posixText], hset⟩
    · rw [onHead_of_ne _ _ hcolon] at h
      cases h
  · rintro ⟨negated, name, rfl, hset⟩
    have hread : posixAfter? flags negated (name ++ ':' :: ']' :: rest) = some (set, rest) :=
      posixAfter?_eq_some_iff.2 ⟨name, rfl, hset⟩
    cases negated with
    | true =>
      have htext : posixText true name ++ rest = ':' :: '^' :: (name ++ ':' :: ']' :: rest) := by
        simp [posixText]
      rw [htext, onHead_cons_self, onHead_cons_self, hread]
    | false =>
      have htext : posixText false name ++ rest = ':' :: (name ++ ':' :: ']' :: rest) := by
        simp [posixText]
      -- a name has letters only, so it is not taken for a negation
      have hhead : (name ++ ':' :: ']' :: rest).head? ≠ some '^' := by
        cases name with
        | nil => exact nofun
        | cons c name =>
          rintro ⟨⟩
          exact absurd (isAlpha_of_posixSet? hset '^' List.mem_cons_self) (by decide)
      rw [htext, onHead_cons_self, onHead_of_ne _ _ hhead, hread]

/-- A named class takes its text and nothing more. -/
theorem shrinks_parsePosix? (flags : Flags) : Shrinks (parsePosix? flags) := by
  intro cs set rest h
  obtain ⟨negated, name, rfl, -⟩ := parsePosix?_eq_some_iff.1 h
  exact List.suffix_append ..

/-- There is no parenthesis in the text of a named class. -/
theorem not_mem_posixText {negated : Bool} {name : List Char} {set : CharSet}
    (h : posixSet? flags negated name = some set) : ')' ∉ posixText negated name := by
  have hname : ')' ∉ name := fun hmem => absurd (isAlpha_of_posixSet? h ')' hmem) (by decide)
  cases negated <;> simp [posixText, hname]

/-- What is read does not depend on what comes after the parenthesis. -/
theorem parsePosix?_append {set : CharSet} {after : List Char} (hstop : Stop stop)
    (h : parsePosix? flags (cs ++ stop) = some (set, after)) :
    ∃ rest, after = rest ++ stop ∧
      ∀ more, parsePosix? flags (cs ++ more) = some (set, rest ++ more) := by
  obtain ⟨negated, name, htext, hset⟩ := parsePosix?_eq_some_iff.1 h
  have hread : ∀ rest, parsePosix? flags (posixText negated name ++ rest) = some (set, rest) :=
    fun rest => parsePosix?_eq_some_iff.2 ⟨negated, name, rfl, hset⟩
  rcases List.append_eq_append_iff.1 htext with ⟨taken, hname, hafter⟩ | ⟨rest, hcs, hafter⟩
  · cases taken with
    | nil =>
      rw [List.append_nil] at hname
      rw [hname] at hread
      exact ⟨[], hafter.symm, hread⟩
    | cons c taken =>
      -- the parenthesis would be in the name
      have hmem : c ∈ posixText negated name := by simp [hname]
      rcases hstop with rfl | ⟨others, rfl⟩
      · cases hafter
      · rw [List.cons_append, List.cons.injEq] at hafter
        exact absurd (hafter.1 ▸ hmem) (not_mem_posixText hset)
  · refine ⟨rest, hafter, fun more => ?_⟩
    rw [hcs, List.append_assoc]
    exact hread (rest ++ more)

/-! ### Items and ranges -/

/-- What may stand inside brackets. -/
def plain? : Primitive → Option Primitive
  | .assertion _ => none
  | item => some item

/-- Read a character or an escape for characters. -/
def plainItem? (flags : Flags) (cs : List Char) : Option (Primitive × List Char) :=
  (parseSetItem? flags cs).bind fun read => (plain? read.1).map (·, read.2)

/-- A character or an escape inside of brackets, once its first character is known. -/
theorem steady_plainItem?_cons (flags : Flags) (c : Char) :
    Steady fun cs => plainItem? flags (c :: cs) := by
  have hescape : Steady fun cs => (parseEscape? flags cs).bind fun read =>
      (plain? read.1).map (·, read.2) := by
    refine .of_cons rfl fun c => ?_
    by_cases hc : c = 'b'
    · have hnone : (fun cs => (parseEscape? flags (c :: cs)).bind fun read =>
          (plain? read.1).map (·, read.2)) = fun _ => none := by
        funext cs
        rw [hc, parseEscape?_edge]
        rcases parseEdge? cs flags with - | ⟨edge, rest⟩
        · rfl
        · rfl
      rw [hnone]
      exact steady_none
    · exact (steady_parseEscape? flags hc).filterMap plain?
  by_cases hc : c = '\\'
  · rw [hc]
    exact hescape
  · have hitem : ∀ cs, parseSetItem? flags (c :: cs) = some (.char c, cs) := by
      intro cs
      rw [parseSetItem?]
      rintro rfl
      exact hc rfl
    simp only [plainItem?, hitem]
    exact steady_some _

/-- A word boundary is refused inside of brackets, so the reader that looks ahead does not matter.
-/
theorem steady_plainItem? (flags : Flags) : Steady (plainItem? flags) :=
  .of_cons rfl (steady_plainItem?_cons flags)

/-- The set of a single item. -/
def itemSet? (flags : Flags) : Primitive → Option CharSet
  | .char c => flags.literal? c
  | .cls set => some set
  | .assertion _ => none

/-- A single item as the set that it stands for. -/
theorem map_itemSet? (flags : Flags) (item : Primitive) (cs : List Char) :
    (itemSet? flags item).map (·, cs) = match item with
      | .char c => (flags.literal? c).map (·, cs)
      | .cls set => some (set, cs)
      | .assertion _ => none := by
  cases item <;> rfl

/-- The set of a range, given its ends. -/
def rangeSet? (flags : Flags) : Primitive → Primitive → Option CharSet
  | .char low, .char high =>
    if flags.ascii && (low.toNat > 0x7f || high.toNat > 0x7f) then none
    else if low ≤ high then some (.range low high) else none
  | _, _ => none

/-- Two items with a dash in between are a range, if both are characters in this order. -/
theorem bind_rangeSet? (flags : Flags) (item : Primitive) (read : Option (Primitive × List Char)) :
    (read.bind fun read => (rangeSet? flags item read.1).map (·, read.2)) =
      match item, read with
      | .char low, some (.char high, rest) =>
        if flags.ascii && (low.toNat > 0x7f || high.toNat > 0x7f) then none
        else if low ≤ high then some (.range low high, rest) else none
      | _, _ => none := by
  rcases read with - | ⟨high, rest⟩
  · cases item <;> rfl
  · rw [Option.bind_some]
    cases item with
    | char low =>
      cases high with
      | char high =>
        dsimp only [rangeSet?]
        split
        · rfl
        · split <;> rfl
      | cls set => rfl
      | assertion condition => rfl
    | cls set => rfl
    | assertion condition => rfl

/-- Read the end of a range after its dash, or leave a dash that does not open one. -/
def afterDash? (flags : Flags) (item : Primitive) (after : List Char) :
    Option (CharSet × List Char) :=
  match flags.skip after with
  | [] => none
  | c :: cs =>
    if c = ']' ∨ c = '-' then (itemSet? flags item).map (·, '-' :: after)
    else (plainItem? flags (c :: cs)).bind fun read => (rangeSet? flags item read.1).map (·, read.2)

/-- Items that are no assertions are read alike. -/
theorem bind_plainItem? {β : Type} (flags : Flags) (cs : List Char)
    {f : Primitive → List Char → Option β}
    (hf : ∀ condition rest, f (.assertion condition) rest = none) :
    (plainItem? flags cs).bind (fun read => f read.1 read.2) =
      (parseSetItem? flags cs).bind fun read => f read.1 read.2 := by
  rw [plainItem?]
  rcases parseSetItem? flags cs with - | ⟨c | set | condition, rest⟩
  · rfl
  · rfl
  · rfl
  · exact (hf condition rest).symm

/-- Read what may come after an item. -/
def rangeAfter? (flags : Flags) (item : Primitive) : List Char → Option (CharSet × List Char) :=
  onHead '-' (afterDash? flags item) fun cs => (itemSet? flags item).map (·, cs)

/-- An assertion is not a set, and no range begins with one. -/
theorem rangeAfter?_assertion (flags : Flags) (condition : Assertion) (cs : List Char) :
    rangeAfter? flags (.assertion condition) cs = none := by
  rcases head_cases '-' cs with ⟨after, rfl⟩ | hdash
  · rw [rangeAfter?, onHead_cons_self, afterDash?]
    rcases flags.skip after with - | ⟨c, cs⟩
    · rfl
    · dsimp only
      split
      · rfl
      · exact Option.bind_eq_none_iff.2 fun _ _ => rfl
  · rw [rangeAfter?, onHead_of_ne _ _ hdash]
    rfl

/-- The first item is read on its own, and the dash after it decides what it is. -/
theorem parseSetRange?_eq (flags : Flags) (cs : List Char) : parseSetRange? flags cs =
    (plainItem? flags cs).bind fun read => rangeAfter? flags read.1 (flags.skip read.2) := by
  rw [bind_plainItem? flags cs (f := fun item rest => rangeAfter? flags item (flags.skip rest))
    fun condition rest => rangeAfter?_assertion flags condition _, parseSetRange?]
  rcases parseSetItem? flags cs with - | ⟨item, rest⟩
  · rfl
  · rw [Option.bind_some]
    dsimp only
    split
    · rename_i after hafter
      rw [hafter, rangeAfter?, onHead_cons_self, afterDash?]
      rcases flags.skip after with - | ⟨c, cs⟩
      · rfl
      · dsimp only
        split
        · rename_i heq
          cases heq
        · rename_i heq
          cases heq
          exact (map_itemSet? flags item _).symm.trans (if_pos (.inl rfl)).symm
        · rename_i heq
          cases heq
          exact (map_itemSet? flags item _).symm.trans (if_pos (.inr rfl)).symm
        · rename_i hbracket hdash
          -- after a dash these two are members of their own, so they end no range
          have hc : ¬(c = ']' ∨ c = '-') := by
            rintro (rfl | rfl)
            · exact hbracket cs rfl
            · exact hdash cs rfl
          rw [if_neg hc, bind_plainItem? flags (c :: cs)
            (f := fun high rest => (rangeSet? flags item high).map (·, rest)) fun _ _ => by
              cases item <;> rfl]
          exact (bind_rangeSet? flags item (parseSetItem? flags (c :: cs))).symm
    · rename_i hother
      rw [rangeAfter?, onHead_of_forall _ _ hother]
      exact (map_itemSet? flags item _).symm

/-- A dash before a bracket or another dash is left where it is. -/
theorem afterDash?_rest {item : Primitive} {after : List Char} {set : CharSet}
    (h : afterDash? flags item after = some (set, rest)) :
    rest = '-' :: after ∨ rest <:+ flags.skip after := by
  rw [afterDash?] at h
  rcases hskip : flags.skip after with - | ⟨c, cs⟩
  · rw [hskip] at h
    cases h
  · rw [hskip] at h
    dsimp only at h
    split at h
    · obtain ⟨_, -, heq⟩ := Option.map_eq_some_iff.1 h
      cases heq
      exact .inl rfl
    · exact .inr (((steady_plainItem? flags).filterMap (rangeSet? flags item)).shrinks h)

/-- Both ends of a range are taken from the front of the text. -/
theorem shrinks_rangeAfter? (flags : Flags) (item : Primitive) :
    Shrinks (rangeAfter? flags item) := by
  intro cs set rest h
  rcases head_cases '-' cs with ⟨after, rfl⟩ | hdash
  · rw [rangeAfter?, onHead_cons_self] at h
    rcases afterDash?_rest h with rfl | hrest
    · exact List.suffix_rfl
    · exact hrest.trans ((flags.skip_suffix after).trans (List.suffix_cons '-' after))
  · rw [rangeAfter?, onHead_of_ne _ _ hdash] at h
    exact (steady_pure _).shrinks h

/-- What comes after an item is read before every stop, or the parenthesis is in a comment behind a
dash that is left. -/
theorem rangeAfter?_before {item : Primitive} {set : CharSet}
    (h : rangeAfter? flags item (cs ++ ')' :: others) = some (set, rest ++ ')' :: others)) :
    (∀ ⦃stop⦄, Stop stop → rangeAfter? flags item (cs ++ stop) = some (set, rest ++ stop)) ∨
      ∃ after, rest = '-' :: after ∧ flags.skip (after ++ ')' :: others) <:+ others := by
  have hsingle : Steady fun cs => (itemSet? flags item).map (·, cs) := steady_pure _
  have hrange : Steady fun cs => (plainItem? flags cs).bind fun read =>
      (rangeSet? flags item read.1).map (·, read.2) :=
    (steady_plainItem? flags).filterMap _
  rcases head_cases '-' cs with ⟨after, rfl⟩ | hdash
  · simp only [List.cons_append, rangeAfter?, onHead_cons_self] at h ⊢
    rcases hskip : flags.skip after with - | ⟨c, cs⟩
    · right
      rcases Flags.skip_append_of_eq_nil hskip with hall | hcomment
      · -- a range would take the parenthesis
        rw [afterDash?, hall, flags.skip_stop (stop_cons others)] at h
        have hnil := hrange.steadyAt [] h stop_nil
        cases hnil
      · -- a comment begins behind the dash and takes the rest of the text
        rcases afterDash?_rest h with hrest | hrest
        · rw [← List.cons_append] at hrest
          exact ⟨after, List.append_cancel_right hrest, hcomment others⟩
        · exact absurd (hrest.trans (hcomment others)) not_suffix_of_cons
    · left
      intro stop hstop
      rw [afterDash?, Flags.skip_append_of_eq_cons hskip] at h ⊢
      dsimp only at h ⊢
      split at h
      · rename_i hc
        rw [if_pos hc]
        exact hsingle.steadyAt ('-' :: after) h hstop
      · rename_i hc
        rw [if_neg hc]
        exact hrange.steadyAt (c :: cs) h hstop
  · left
    intro stop hstop
    rw [rangeAfter?, onHead_of_ne _ _ ((stop_cons others).head?_append_ne (by decide) hdash)] at h
    rw [rangeAfter?, onHead_of_ne _ _ (hstop.head?_append_ne (by decide) hdash)]
    exact hsingle.steadyAt cs h hstop

/-- A range or an item takes at least its first character. -/
theorem shrinks_parseSetRange? (flags : Flags) (c : Char) :
    Shrinks fun cs => parseSetRange? flags (c :: cs) := by
  simp only [parseSetRange?_eq]
  exact (steady_plainItem?_cons flags c).shrinks.bind (g := fun item cs =>
    rangeAfter? flags item (flags.skip cs)) fun item => (shrinks_rangeAfter? flags item).skip flags

/-- A range is read before every stop, unless it was given up at a dash behind which there is
nothing but a comment with the parenthesis in it. -/
theorem parseSetRange?_before {set : CharSet}
    (h : parseSetRange? flags (cs ++ ')' :: others) = some (set, rest ++ ')' :: others)) :
    (∀ ⦃stop⦄, Stop stop → parseSetRange? flags (cs ++ stop) = some (set, rest ++ stop)) ∨
      ∃ after, rest = '-' :: after ∧ flags.skip (after ++ ')' :: others) <:+ others := by
  rw [parseSetRange?_eq] at h
  obtain ⟨⟨item, text⟩, hitem, h⟩ := Option.bind_eq_some_iff.1 h
  have hskipped := shrinks_rangeAfter? flags item h
  obtain ⟨before, rfl, -⟩ := exists_middle ((steady_plainItem? flags).shrinks hitem)
    (hskipped.trans (flags.skip_suffix text))
  obtain ⟨middle, hmiddle, -⟩ := exists_middle (flags.skip_suffix _) hskipped
  dsimp only at h
  rw [hmiddle] at h
  rcases rangeAfter?_before h with hread | hdash
  · left
    intro stop hstop
    rw [parseSetRange?_eq, (steady_plainItem? flags).steadyAt cs hitem hstop, Option.bind_some]
    dsimp only
    rw [Flags.skip_before hmiddle hstop]
    exact hread hstop
  · exact .inr hdash

/-! ### Classes -/

/-- The operator that is written with a character twice. -/
def operator? : Char → Option SetOperator
  | '&' => some .intersection
  | '-' => some .difference
  | '~' => some .symmetricDifference
  | _ => none

/-- Reads the rest of a class that is open. -/
abbrev ClassReader : Type :=
  OpenClass → List OpenClass → List Char → Option (CharSet × List Char)

/-- Read a member that begins with a character, and go on. -/
def readMember? (flags : Flags) (next : ClassReader) (cls : OpenClass) (outer : List OpenClass)
    (c : Char) (cs : List Char) : Option (CharSet × List Char) :=
  (parseSetRange? flags (c :: cs)).bind fun read => next (cls.add read.1) outer read.2

/-- Read a class after its bracket, and go on. -/
def readInner? (flags : Flags) (next : ClassReader) (cls : OpenClass) (outer : List OpenClass)
    (cs : List Char) : Option (CharSet × List Char) :=
  match parsePosix? flags cs with
  | some (set, cs) => next (cls.add set) outer cs
  | none => (some (openClass flags cs)).bind fun read => next read.1 (cls :: outer) read.2

/-- Close a class, and go on in the class around it. -/
def closeClass? (flags : Flags) (next : ClassReader) (cls : OpenClass) (outer : List OpenClass)
    (cs : List Char) : Option (CharSet × List Char) :=
  match cls.close? flags, outer with
  | none, _ => none
  | some set, [] => some (set, cs)
  | some set, parent :: outer => next (parent.add set) outer cs

/-- One step through a class. -/
def classStep? (flags : Flags) (next : ClassReader) (cls : OpenClass) (outer : List OpenClass) :
    List Char → Option (CharSet × List Char)
  | [] => none
  | c :: cs =>
    if c = '[' then readInner? flags next cls outer cs
    else if c = ']' then closeClass? flags next cls outer cs
    else
      match operator? c with
      | some operator =>
        onHead c (next (cls.operate flags operator) outer) (readMember? flags next cls outer c) cs
      | none => readMember? flags next cls outer c cs

/-- One step over a bracketed class, given the reader of the rest of it. -/
theorem parseClass?_succ (flags : Flags) (fuel : Nat) (cls : OpenClass) (outer : List OpenClass)
    (cs : List Char) : parseClass? flags (fuel + 1) cls outer cs =
      classStep? flags (parseClass? flags fuel) cls outer (flags.skip cs) := by
  have hmember : ∀ text, (match parseSetRange? flags text with
      | some (set, cs) => parseClass? flags fuel (cls.add set) outer cs
      | none => none) = (parseSetRange? flags text).bind fun read =>
        parseClass? flags fuel (cls.add read.1) outer read.2 := by
    intro text
    rcases parseSetRange? flags text with - | ⟨set, rest⟩
    · rfl
    · rfl
  rw [parseClass?]
  generalize flags.skip cs = text
  split
  any_goals rfl
  rename_i hnil hopen hclose hand hminus htilde
  refine (hmember text).trans ?_
  cases text with
  | nil => exact absurd rfl hnil
  | cons c cs =>
    rw [classStep?, if_neg (by rintro rfl; exact hopen cs rfl),
      if_neg (by rintro rfl; exact hclose cs rfl)]
    -- an operator is written twice, and only then it is read as one
    have hother : ∀ operator, operator? c = some operator → cs.head? ≠ some c := by
      intro operator hoperator hhead
      obtain ⟨cs, rfl⟩ := List.head?_eq_some_iff.1 hhead
      unfold operator? at hoperator
      split at hoperator
      · exact hand cs rfl
      · exact hminus cs rfl
      · exact htilde cs rfl
      · cases hoperator
    rcases hoperator : operator? c with - | operator
    · rfl
    · exact (onHead_of_ne _ (readMember? flags (parseClass? flags fuel) cls outer c)
        (hother operator hoperator)).symm

section

variable {next next' : ClassReader}

/-- A step needs the reader of the rest for ends of the text only. -/
theorem classStep?_congr (c : Char)
    (h : ∀ cls outer rest, rest <:+ cs → next cls outer rest = next' cls outer rest) :
    classStep? flags next cls outer (c :: cs) = classStep? flags next' cls outer (c :: cs) := by
  have hinner : readInner? flags next cls outer cs = readInner? flags next' cls outer cs := by
    rw [readInner?, readInner?]
    split
    · rename_i hread
      exact h _ _ _ (shrinks_parsePosix? flags hread)
    · exact h _ _ _ ((steady_openClass flags).shrinks rfl)
  have hclose : closeClass? flags next cls outer cs = closeClass? flags next' cls outer cs := by
    rw [closeClass?.eq_def, closeClass?.eq_def]
    split
    · rfl
    · rfl
    · exact h _ _ _ List.suffix_rfl
  have hmember :
      readMember? flags next cls outer c cs = readMember? flags next' cls outer c cs := by
    rw [readMember?, readMember?]
    rcases hread : parseSetRange? flags (c :: cs) with - | ⟨set, rest⟩
    · rfl
    · exact h _ _ _ (shrinks_parseSetRange? flags c hread)
  rw [classStep?, classStep?, hinner, hclose]
  rcases operator? c with - | operator
  · simp only [hmember]
  · dsimp only
    rcases head_cases c cs with ⟨cs, rfl⟩ | hhead
    · rw [onHead_cons_self, onHead_cons_self, h _ _ _ (List.suffix_cons c cs)]
    · rw [onHead_of_ne _ _ hhead, onHead_of_ne _ _ hhead, hmember]

/-- A class inside of another one is opened, and read on like any other. -/
theorem steady_readInner? (h : ∀ cls outer, Steady (next cls outer)) :
    Steady (readInner? flags next cls outer) := by
  have hopen : Steady fun cs => (some (openClass flags cs)).bind fun read =>
      next read.1 (cls :: outer) read.2 :=
    (steady_openClass flags).bind fun inner => h inner (cls :: outer)
  constructor
  · intro cs set rest hread
    rw [readInner?] at hread
    split at hread
    · rename_i hposix
      exact ((h _ _).shrinks hread).trans (shrinks_parsePosix? flags hposix)
    · exact hopen.shrinks hread
  · intro cs others set rest hread stop hstop
    rw [readInner?] at hread ⊢
    split at hread
    · rename_i hposix
      obtain ⟨before, rfl, hmore⟩ := parsePosix?_append (stop_cons others) hposix
      rw [hmore]
      exact (h _ _).steadyAt before hread hstop
    · rename_i hnone
      split
      · rename_i hposix
        obtain ⟨before, rfl, hmore⟩ := parsePosix?_append hstop hposix
        rw [hmore] at hnone
        cases hnone
      · exact hopen.steadyAt cs hread hstop

/-- A bracket closes the innermost class; what comes after it is not looked at. -/
theorem steady_closeClass? (h : ∀ cls outer, Steady (next cls outer)) :
    Steady (closeClass? flags next cls outer) := by
  rcases hset : cls.close? flags with - | set
  · have heq : closeClass? flags next cls outer = fun _ => none := by
      funext cs
      rw [closeClass?.eq_def, hset]
    rw [heq]
    exact steady_none
  · cases outer with
    | nil =>
      have heq : closeClass? flags next cls [] = fun cs => some (set, cs) := by
        funext cs
        rw [closeClass?.eq_def, hset]
      rw [heq]
      exact steady_some set
    | cons parent outer =>
      have heq : closeClass? flags next cls (parent :: outer) = next (parent.add set) outer := by
        funext cs
        rw [closeClass?.eq_def, hset]
      rw [heq]
      exact h _ _

/-- What is insignificant behind a dash is taken with it. -/
def TakesDash (flags : Flags) (f : List Char → Option (CharSet × List Char)) : Prop :=
  ∀ ⦃after set rest⦄, f ('-' :: after) = some (set, rest) → rest <:+ flags.skip after

/-- A member and the rest are read before every stop: a dash with the comment behind it would have
been taken. -/
theorem steady_readMember? (h : ∀ cls outer, Steady (next cls outer))
    (hdash : ∀ cls outer, TakesDash flags (next cls outer)) (c : Char) :
    Steady (readMember? flags next cls outer c) where
  shrinks := (shrinks_parseSetRange? flags c).bind (g := fun set => next (cls.add set) outer)
    fun _ => (h _ _).shrinks
  steadyAt := by
    intro cs others set rest hread stop hstop
    obtain ⟨⟨member, text⟩, hmember, hread⟩ := Option.bind_eq_some_iff.1 hread
    obtain ⟨before, rfl, -⟩ := exists_middle (shrinks_parseSetRange? flags c hmember)
      ((h _ _).shrinks hread)
    rw [← List.cons_append] at hmember
    rcases parseSetRange?_before hmember with hbefore | ⟨after, rfl, hcomment⟩
    · rw [readMember?, ← List.cons_append, hbefore hstop]
      exact (h _ _).steadyAt before hread hstop
    · -- the dash is read with the comment behind it
      exact absurd ((hdash _ _ hread).trans hcomment) not_suffix_of_cons

/-- A step is steady if the reader of the rest is, and takes what is behind a dash with it. -/
theorem steady_classStep? (h : ∀ cls outer, Steady (next cls outer))
    (hdash : ∀ cls outer, TakesDash flags (next cls outer)) :
    Steady (classStep? flags next cls outer) := by
  refine .of_cons rfl fun c => ?_
  simp only [classStep?]
  split
  · exact steady_readInner? h
  · split
    · exact steady_closeClass? h
    · rcases hoperator : operator? c with - | operator
      · exact steady_readMember? h hdash c
      · have hc : c ≠ ')' := by
          rintro rfl
          cases hoperator
        exact .onHead hc (h _ _) (steady_readMember? h hdash c)

/-- A dash that an earlier range has left is taken for an operator or an item. -/
theorem takesDash_classStep? (h : ∀ cls outer, Steady (next cls outer)) :
    TakesDash flags (classStep? flags next cls outer) := by
  intro after set rest hread
  have hoperator : classStep? flags next cls outer ('-' :: after) =
      onHead '-' (next (cls.operate flags .difference) outer)
        (readMember? flags next cls outer '-') after := rfl
  rw [hoperator] at hread
  rcases head_cases '-' after with ⟨after, rfl⟩ | hhead
  · rw [onHead_cons_self] at hread
    rw [flags.skip_cons (by decide) (by decide)]
    exact ((h _ _).shrinks hread).trans (List.suffix_cons '-' after)
  · rw [onHead_of_ne _ _ hhead] at hread
    obtain ⟨⟨member, text⟩, hmember, hread⟩ := Option.bind_eq_some_iff.1 hread
    rw [parseSetRange?_eq] at hmember
    exact ((h _ _).shrinks hread).trans (shrinks_rangeAfter? flags (.char '-') hmember)

/-- Both by induction on the fuel, since each of the two needs the other one for the rest of the
class. -/
theorem parseClass?_steady (flags : Flags) (fuel : Nat) :
    (∀ cls outer, Steady (parseClass? flags fuel cls outer)) ∧
      ∀ cls outer, TakesDash flags (parseClass? flags fuel cls outer) := by
  induction fuel with
  | zero => exact ⟨fun _ _ => steady_none, fun _ _ => nofun⟩
  | succ fuel ih =>
    constructor
    · intro cls outer
      rw [funext (parseClass?_succ flags fuel cls outer)]
      exact (steady_classStep? ih.1 ih.2).skip flags
    · intro cls outer after set rest hread
      rw [parseClass?_succ, flags.skip_cons (by decide) (by decide)] at hread
      exact takesDash_classStep? ih.1 hread

/-- Each step takes a character, so the number of characters bounds the steps. -/
theorem parseClass?_fuel {fuel fuel' : Nat} (h : cs.length < fuel) (h' : cs.length < fuel') :
    parseClass? flags fuel cls outer cs = parseClass? flags fuel' cls outer cs := by
  induction fuel generalizing fuel' cls outer cs with
  | zero => omega
  | succ fuel ih =>
    obtain ⟨fuel', rfl⟩ := Nat.exists_eq_add_of_le' (Nat.one_le_of_lt h')
    have hskip := (flags.skip_suffix cs).length_le
    rw [parseClass?_succ, parseClass?_succ]
    rcases hcs : flags.skip cs with - | ⟨c, cs'⟩
    · rfl
    · refine classStep?_congr c fun cls outer rest hrest => ?_
      have hlength := hrest.length_le
      rw [hcs, List.length_cons] at hskip
      exact ih (by omega) (by omega)

end

/-- Read a bracketed class after its bracket. -/
def readClass? (flags : Flags) (cs : List Char) : Option (CharSet × List Char) :=
  (some (openClass flags cs)).bind fun read =>
    parseClass? flags (2 * read.2.length + 1) read.1 [] read.2

/-- With enough fuel for any text the whole class is steady. -/
theorem steady_readClass? (flags : Flags) : Steady (readClass? flags) := by
  have hrest : ∀ cls, Steady fun cs => parseClass? flags (2 * cs.length + 1) cls [] cs := by
    intro cls
    refine .of_fuel (fun fuel => (parseClass?_steady flags fuel).1 cls []) fun _ cs h => ?_
    exact parseClass?_fuel h (by omega)
  exact (steady_openClass flags).bind hrest

end Peg.Regex
