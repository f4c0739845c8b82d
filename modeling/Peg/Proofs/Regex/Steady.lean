/-
Peg/Proofs/Regex/Steady.lean

Readers that do not see past a closing parenthesis.

A regular expression that is put between parentheses is read as it is read
alone, as far as its readers do not look at what comes after it.  A reader is
steady if whatever it reads before a closing parenthesis it also reads before
any other, and at the end of the text.  Nothing is said of a reader that takes
the parenthesis itself: in a bracketed class it is a character, and in the
verbose style it may be in a comment.

What is composed of steady readers is steady, provided that readers take text
away from the beginning only, so that the place of the parenthesis is known
from what is left.
-/
import Mathlib.Data.List.TakeWhile
import Peg.Regex.Parser

namespace Peg.Regex

open Text

variable {α β : Type} {f f' : List Char → Option (α × List Char)} {cs rest stop : List Char}

/-! ### Steady readers -/

/-- The text ends, or goes on with a closing parenthesis. -/
def Stop (cs : List Char) : Prop :=
  cs = [] ∨ ∃ others, cs = ')' :: others

/-- A reader leaves an end of its text. -/
def Shrinks (f : List Char → Option (α × List Char)) : Prop :=
  ∀ ⦃cs value rest⦄, f cs = some (value, rest) → rest <:+ cs

/-- What is read from a text before one closing parenthesis is read from it before every stop. -/
def SteadyAt (f : List Char → Option (α × List Char)) (cs : List Char) : Prop :=
  ∀ ⦃others value rest⦄, f (cs ++ ')' :: others) = some (value, rest ++ ')' :: others) →
    ∀ ⦃stop⦄, Stop stop → f (cs ++ stop) = some (value, rest ++ stop)

/-- A reader that does not see past a closing parenthesis. -/
structure Steady (f : List Char → Option (α × List Char)) : Prop where
  shrinks : Shrinks f
  steadyAt (cs : List Char) : SteadyAt f cs

/-- The end of the text is a stop. -/
theorem stop_nil : Stop [] :=
  .inl rfl

/-- A closing parenthesis is a stop, whatever is behind it. -/
theorem stop_cons (others : List Char) : Stop (')' :: others) :=
  .inr ⟨others, rfl⟩

/-- A stop begins with no other character. -/
theorem Stop.head?_ne {c : Char} (h : Stop stop) (hc : c ≠ ')') : stop.head? ≠ some c := by
  rcases h with rfl | ⟨others, rfl⟩
  · exact nofun
  · exact fun heq => hc (Option.some.inj heq).symm

/-- A stop after a text does not make it begin with another character. -/
theorem Stop.head?_append_ne {c : Char} (h : Stop stop) (hc : c ≠ ')')
    (hcs : cs.head? ≠ some c) : (cs ++ stop).head? ≠ some c := by
  cases cs with
  | nil => exact h.head?_ne hc
  | cons d cs => exact hcs

/-- What is left in between is known up to the parenthesis. -/
theorem exists_middle {middle others : List Char} (hmiddle : middle <:+ cs ++ ')' :: others)
    (hrest : rest ++ ')' :: others <:+ middle) :
    ∃ before, middle = before ++ ')' :: others ∧ before <:+ cs ∧ rest <:+ before := by
  obtain ⟨taken, rfl⟩ := hrest
  obtain ⟨skipped, hskipped⟩ := hmiddle
  refine ⟨taken ++ rest, (List.append_assoc ..).symm, ⟨skipped, ?_⟩, List.suffix_append ..⟩
  rw [← List.append_assoc, ← List.append_assoc] at hskipped
  rw [← List.append_assoc]
  exact List.append_cancel_right hskipped

/-- The parenthesis is not behind what comes after it. -/
theorem not_suffix_of_cons {others : List Char} : ¬rest ++ ')' :: others <:+ others := by
  intro h
  have := h.length_le
  rw [List.length_append, List.length_cons] at this
  omega

/-! ### Composition -/

/-- A reader that takes nothing is steady. -/
theorem steady_pure (value : Option α) : Steady fun cs => value.map (·, cs) where
  shrinks := by
    intro cs value' rest h
    obtain ⟨_, -, heq⟩ := Option.map_eq_some_iff.1 h
    cases heq
    exact List.suffix_rfl
  steadyAt := by
    intro cs others value' rest h stop _
    obtain ⟨value, rfl, heq⟩ := Option.map_eq_some_iff.1 h
    obtain ⟨rfl, htext⟩ := Prod.mk.inj heq
    rw [List.append_cancel_right htext]
    rfl

theorem steady_some (value : α) : Steady fun cs => some (value, cs) :=
  steady_pure (some value)

theorem steady_none : Steady (fun _ => none : List Char → Option (α × List Char)) where
  shrinks := nofun
  steadyAt := nofun

/-- Readers one after the other leave an end of the text. -/
theorem Shrinks.bind {g : α → List Char → Option (β × List Char)} (hf : Shrinks f)
    (hg : ∀ value, Shrinks (g value)) :
    Shrinks fun cs => (f cs).bind fun read => g read.1 read.2 := by
  intro cs value rest h
  obtain ⟨⟨middle, text⟩, hmiddle, h⟩ := Option.bind_eq_some_iff.1 h
  exact (hg _ h).trans (hf hmiddle)

/-- Readers one after the other, where the second one may depend on the first; it is needed at the
ends of the text that the first one leaves. -/
theorem SteadyAt.bind {g : α → List Char → Option (β × List Char)} (hf : Shrinks f)
    (hg : ∀ value, Shrinks (g value)) (h : SteadyAt f cs)
    (h' : ∀ value rest, rest <:+ cs → SteadyAt (g value) rest) :
    SteadyAt (fun cs => (f cs).bind fun read => g read.1 read.2) cs := by
  intro others value rest hread stop hstop
  obtain ⟨⟨middle, text⟩, hmiddle, hread⟩ := Option.bind_eq_some_iff.1 hread
  obtain ⟨before, rfl, hbefore, -⟩ := exists_middle (hf hmiddle) (hg _ hread)
  show (f (cs ++ stop)).bind _ = _
  rw [h hmiddle hstop, Option.bind_some]
  exact h' _ _ hbefore hread hstop

/-- What becomes of the value does not matter to the text. -/
theorem SteadyAt.map (h : SteadyAt f cs) (g : α → β) :
    SteadyAt (fun cs => (f cs).map fun read => (g read.1, read.2)) cs := by
  intro others value rest hread stop hstop
  obtain ⟨⟨inner, text⟩, hinner, heq⟩ := Option.map_eq_some_iff.1 hread
  obtain ⟨rfl, rfl⟩ := Prod.mk.inj heq
  show (f (cs ++ stop)).map _ = _
  rw [h hinner hstop]
  rfl

/-- A reader that takes the parenthesis says nothing before it. -/
theorem steadyAt_nil (h : Shrinks fun cs => f (')' :: cs)) : SteadyAt f [] :=
  fun _ _ _ hread => absurd (h hread) not_suffix_of_cons

theorem Shrinks.map (hf : Shrinks f) (g : α → β) :
    Shrinks fun cs => (f cs).map fun read => (g read.1, read.2) := by
  intro cs value rest h
  obtain ⟨⟨value', text⟩, hread, heq⟩ := Option.map_eq_some_iff.1 h
  obtain ⟨rfl, rfl⟩ := Prod.mk.inj heq
  exact hf hread

theorem Steady.map (hf : Steady f) (g : α → β) :
    Steady fun cs => (f cs).map fun read => (g read.1, read.2) :=
  ⟨hf.shrinks.map g, fun cs => (hf.steadyAt cs).map g⟩

/-- Steady readers one after the other are steady. -/
theorem Steady.bind {g : α → List Char → Option (β × List Char)} (hf : Steady f)
    (hg : ∀ value, Steady (g value)) :
    Steady fun cs => (f cs).bind fun read => g read.1 read.2 where
  shrinks := hf.shrinks.bind fun value => (hg value).shrinks
  steadyAt cs := (hf.steadyAt cs).bind hf.shrinks (fun value => (hg value).shrinks)
    fun value rest _ => (hg value).steadyAt rest

/-- A value that is checked or changed after it was read. -/
theorem Steady.filterMap (hf : Steady f) (g : α → Option β) :
    Steady fun cs => (f cs).bind fun read => (g read.1).map (·, read.2) :=
  hf.bind fun value => steady_pure (g value)

/-- A reader that always takes a character leaves an end of what comes after it. -/
theorem Shrinks.of_cons (hnil : f [] = none) (hcons : ∀ c, Shrinks fun cs => f (c :: cs)) :
    Shrinks f := by
  intro cs value rest h
  cases cs with
  | nil =>
    rw [hnil] at h
    cases h
  | cons c cs => exact (hcons c h).trans (List.suffix_cons c cs)

/-- A reader that always takes a character. -/
theorem Steady.of_cons (hnil : f [] = none) (hcons : ∀ c, Steady fun cs => f (c :: cs)) :
    Steady f where
  shrinks := .of_cons hnil fun c => (hcons c).shrinks
  steadyAt := by
    intro cs others value rest h stop hstop
    cases cs with
    | nil => exact steadyAt_nil (hcons ')').shrinks h hstop
    | cons c cs => exact (hcons c).steadyAt cs h hstop

/-- A text begins with a character or it does not. -/
theorem head_cases (symbol : Char) (cs : List Char) :
    (∃ others, cs = symbol :: others) ∨ cs.head? ≠ some symbol :=
  (em _).imp_left List.head?_eq_some_iff.1

/-- Go one way after a character and another way otherwise. -/
def onHead {γ : Type} (symbol : Char) (after otherwise : List Char → γ) : List Char → γ
  | [] => otherwise []
  | c :: cs => if c = symbol then after cs else otherwise (c :: cs)

@[simp] theorem onHead_cons_self {γ : Type} (symbol : Char) (after otherwise : List Char → γ)
    (cs : List Char) : onHead symbol after otherwise (symbol :: cs) = after cs :=
  if_pos rfl

theorem onHead_of_ne {γ : Type} {symbol : Char} (after otherwise : List Char → γ)
    (h : cs.head? ≠ some symbol) : onHead symbol after otherwise cs = otherwise cs := by
  cases cs with
  | nil => rfl
  | cons c cs => exact if_neg fun hc => h (congrArg some hc)

/-- The same, with the condition that a match on the text leaves behind. -/
theorem onHead_of_forall {γ : Type} {symbol : Char} (after otherwise : List Char → γ)
    (h : ∀ others, cs = symbol :: others → False) :
    onHead symbol after otherwise cs = otherwise cs := by
  refine onHead_of_ne after otherwise fun hhead => ?_
  obtain ⟨others, hcs⟩ := List.head?_eq_some_iff.1 hhead
  exact h others hcs

/-- A choice by the next character is steady, unless it is made by the parenthesis. -/
theorem Steady.onHead {symbol : Char} (hsymbol : symbol ≠ ')') (hf : Steady f) (hf' : Steady f') :
    Steady (onHead symbol f f') where
  shrinks := by
    intro cs value rest h
    rcases head_cases symbol cs with ⟨cs, rfl⟩ | hcs
    · rw [onHead_cons_self] at h
      exact (hf.shrinks h).trans (List.suffix_cons symbol cs)
    · rw [onHead_of_ne f f' hcs] at h
      exact hf'.shrinks h
  steadyAt := by
    intro cs others value rest h stop hstop
    -- an empty text lets the parser see what comes next, and that is never the symbol
    cases cs with
    | nil =>
      rw [List.nil_append, onHead_of_ne f f' ((stop_cons others).head?_ne hsymbol)] at h
      rw [List.nil_append, onHead_of_ne f f' (hstop.head?_ne hsymbol)]
      exact hf'.steadyAt [] h hstop
    | cons c cs =>
      by_cases hc : c = symbol
      · subst hc
        rw [List.cons_append, onHead_cons_self] at h ⊢
        exact hf.steadyAt cs h hstop
      · have hne : ∀ text : List Char, (c :: text).head? ≠ some symbol :=
          fun _ heq => hc (Option.some.inj heq)
        rw [List.cons_append, onHead_of_ne f f' (hne _)] at h ⊢
        exact hf'.steadyAt (c :: cs) h hstop

/-! ### Insignificant text -/

/-- Whatever is significant ends the skipping; what is not leaves it inside a comment or outside of
one. -/
theorem skipComments_append (inComment : Bool) (cs : List Char) :
    (skipComments inComment cs ≠ [] ∧
        ∀ more, skipComments inComment (cs ++ more) = skipComments inComment cs ++ more) ∨
      (skipComments inComment cs = [] ∧
        ∃ after, ∀ more, skipComments inComment (cs ++ more) = skipComments after more) := by
  induction cs generalizing inComment with
  | nil => exact .inr ⟨by cases inComment <;> rfl, inComment, fun _ => rfl⟩
  | cons c cs ih =>
    cases inComment with
    | true => exact ih (c != '\n')
    | false =>
      simp only [List.cons_append, skipComments]
      split
      · exact ih false
      · split
        · exact ih true
        · exact .inl ⟨List.cons_ne_nil c cs, fun _ => rfl⟩

/-- Comments and blanks are skipped from the front. -/
theorem skipComments_suffix (inComment : Bool) (cs : List Char) :
    skipComments inComment cs <:+ cs := by
  induction cs generalizing inComment with
  | nil => cases inComment <;> exact List.suffix_rfl
  | cons c cs ih =>
    cases inComment with
    | true => exact (ih (c != '\n')).trans (List.suffix_cons c cs)
    | false =>
      rw [skipComments]
      split
      · exact (ih false).trans (List.suffix_cons c cs)
      · split
        · exact (ih true).trans (List.suffix_cons c cs)
        · exact List.suffix_rfl

namespace Flags

variable {flags : Flags}

theorem skip_suffix (flags : Flags) (cs : List Char) : flags.skip cs <:+ cs := by
  rw [skip]
  split
  · exact skipComments_suffix false cs
  · exact List.suffix_rfl

/-- A significant character is left. -/
theorem skip_cons (flags : Flags) {c : Char} (hblank : isBlank c = false) (hc : c ≠ '#')
    (cs : List Char) : flags.skip (c :: cs) = c :: cs := by
  have hcomments : skipComments false (c :: cs) = c :: cs := by
    rw [skipComments, hblank, if_neg Bool.false_ne_true, if_neg (by simpa using hc)]
  rw [skip, hcomments, ite_self]

/-- A stop is significant. -/
theorem skip_stop (flags : Flags) (h : Stop stop) : flags.skip stop = stop := by
  rcases h with rfl | ⟨others, rfl⟩
  · exact List.suffix_nil.1 (flags.skip_suffix [])
  · exact flags.skip_cons (by decide) (by decide) others

/-- Once something significant is found, more text at the end makes no difference. -/
theorem skip_append_of_ne_nil (h : flags.skip cs ≠ []) (more : List Char) :
    flags.skip (cs ++ more) = flags.skip cs ++ more := by
  rw [skip, skip] at *
  split
  · rename_i hverbose
    rw [if_pos hverbose] at h
    rcases skipComments_append false cs with ⟨-, happend⟩ | ⟨hnil, -⟩
    · exact happend more
    · exact absurd hnil h
  · rfl

theorem skip_append_of_eq_cons {c : Char} (h : flags.skip cs = c :: rest) (more : List Char) :
    flags.skip (cs ++ more) = c :: (rest ++ more) := by
  rw [skip_append_of_ne_nil (by simp [h]), h, List.cons_append]

/-- What is not significant is skipped on its own, unless the stop is in a comment, which takes the
parenthesis. -/
theorem skip_append_of_eq_nil (h : flags.skip cs = []) :
    (∀ more, flags.skip (cs ++ more) = flags.skip more) ∨
      ∀ others, flags.skip (cs ++ ')' :: others) <:+ others := by
  by_cases hverbose : flags.verbose = true
  · simp only [skip, hverbose, if_true] at h ⊢
    rcases skipComments_append false cs with ⟨hne, -⟩ | ⟨-, inComment, happend⟩
    · exact absurd h hne
    · cases inComment with
      | false => exact .inl happend
      | true =>
        refine .inr fun others => ?_
        rw [happend, skipComments]
        exact skipComments_suffix _ others
  · have hskip : ∀ text, flags.skip text = text := fun _ => if_neg hverbose
    rw [hskip] at h
    left
    intro more
    rw [h, List.nil_append]

/-- The same is skipped before every stop. -/
theorem skip_before {others : List Char}
    (h : flags.skip (cs ++ ')' :: others) = rest ++ ')' :: others)
    (hstop : Stop stop) : flags.skip (cs ++ stop) = rest ++ stop := by
  by_cases hnil : flags.skip cs = []
  · rcases skip_append_of_eq_nil hnil with hall | hcomment
    · rw [hall, flags.skip_stop (stop_cons others)] at h
      obtain rfl : [] = rest := List.append_cancel_right (h : [] ++ ')' :: others = _)
      rw [hall, flags.skip_stop hstop]
      rfl
    · exact absurd (h ▸ hcomment others) not_suffix_of_cons
  · rw [skip_append_of_ne_nil hnil] at h ⊢
    rw [List.append_cancel_right h]

/-- Skipping as a reader, which gives no value. -/
theorem steady_skip (flags : Flags) : Steady fun cs => some ((), flags.skip cs) where
  shrinks := by
    intro cs value rest h
    cases h
    exact flags.skip_suffix cs
  steadyAt := by
    intro cs others value rest h stop hstop
    have hrest := (Prod.mk.inj (Option.some.inj h)).2
    show some ((), flags.skip (cs ++ stop)) = _
    rw [skip_before hrest hstop]

end Flags

theorem Shrinks.skip (flags : Flags) (hf : Shrinks f) : Shrinks fun cs => f (flags.skip cs) :=
  fun cs _ _ h => (hf h).trans (flags.skip_suffix cs)

/-- Insignificant text may be skipped before a steady reader. -/
theorem Steady.skip (flags : Flags) (hf : Steady f) : Steady fun cs => f (flags.skip cs) :=
  flags.steady_skip.bind fun _ => hf

/-! ### Recursion -/

/-- A recursion on fuel is steady if it is for every fuel, and needs no more than the length of the
text. -/
theorem Steady.of_fuel {g : Nat → List Char → Option (α × List Char)} (h : ∀ fuel, Steady (g fuel))
    (hfuel : ∀ ⦃fuel cs⦄, cs.length < fuel → g fuel cs = f cs) : Steady f where
  shrinks := by
    intro cs value rest hread
    rw [← hfuel (Nat.lt_succ_self cs.length)] at hread
    exact (h _).shrinks hread
  steadyAt := by
    intro cs others value rest hread stop hstop
    -- one fuel is enough for both texts
    have hone : (cs ++ ')' :: others).length <
        (cs ++ ')' :: others).length + (cs ++ stop).length + 1 := by omega
    have hother : (cs ++ stop).length <
        (cs ++ ')' :: others).length + (cs ++ stop).length + 1 := by omega
    rw [← hfuel hone] at hread
    rw [← hfuel hother]
    exact (h _).steadyAt cs hread hstop

end Peg.Regex
