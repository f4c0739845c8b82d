/-
Peg/Proofs/Grammar/ReadPattern.lean

How written patterns are read.

A written pattern is read to its end provided that what follows is `Apart`
from it: no character that could go on with a name, no backquote that would
make a template of it and no parenthesis that would make an application of it.
The proof is by recursion on the pattern, along with the members of groups,
which are separated by blanks and followed by a closing parenthesis.

The first character decides which of the alternatives for a pattern reads it,
except for names, templates and applications, where the lookaheads do.
-/
import Peg.Grammar.Format
import Peg.Proofs.Grammar.Reading

namespace Peg.Meta

open Text Regex

variable {word rest text : List Char} {value : Value}

/-! ### What follows a pattern -/

/-- The text does not go on with a pattern before it. -/
structure Apart (text : List Char) : Prop where
  name : idSet.Avoids text
  quote : (CharSet.single '`').Avoids text
  paren : (CharSet.single '(').Avoids text

theorem apart_cons {c : Char} {cs : List Char} (hname : idSet.contains c = false) (hquote : c ≠ '`')
    (hparen : c ≠ '(') : Apart (c :: cs) := by
  refine ⟨CharSet.avoids_cons.2 hname, CharSet.avoids_cons.2 ?_, CharSet.avoids_cons.2 ?_⟩
  · rw [CharSet.contains_single, beq_eq_false_iff_ne]
    exact hquote
  · rw [CharSet.contains_single, beq_eq_false_iff_ne]
    exact hparen

theorem Apart.avoids {set : CharSet} (h : Apart text)
    (hset : ∀ c, set.contains c = true → idSet.contains c = true) : set.Avoids text := by
  intro c hc
  rw [Bool.eq_false_iff]
  intro hcontains
  have hname := h.name c hc
  rw [hset c hcontains] at hname
  cases hname

theorem Apart.flags (h : Apart text) : flagSet.Avoids text := by
  refine h.avoids fun c hc => ?_
  simp only [flagSet, CharSet.contains_union, CharSet.contains_single, Bool.or_eq_true,
    beq_iff_eq] at hc
  rcases hc with rfl | rfl
  · decide
  · decide

theorem Apart.digits (h : Apart text) : digitSet.Avoids text := by
  refine h.avoids fun c hc => ?_
  rw [contains_digitSet] at hc
  rw [contains_idSet, Char.isAlphanum, hc, Bool.or_true, Bool.true_or]

/-! ### First characters -/

/-- The patterns that are told by their first character. -/
def openings : List (Name × Char) :=
  [(.literal, '\''), (.regex, '/'), (.any, '.'), (.variable, '$'), (.group, '(')]

/-- The first character of a name or of a template. -/
def NameStart (c : Char) : Prop :=
  idStartSet.contains c = true ∨ c = '`'

/-- The first character of a pattern. -/
def PatternStart (c : Char) : Prop :=
  NameStart c ∨ ∃ opening ∈ openings, opening.2 = c

/-- The alternatives that are told by their first character. -/
def told : List CompiledAlternative :=
  openings.map fun opening => only (call opening.1)

def templateAlternative : CompiledAlternative :=
  pick [.look (call .tplHead), call .template] 1

def applyAlternative : CompiledAlternative :=
  pick [.look (call .applyHead), call .apply] 1

def nameAlternative : CompiledAlternative :=
  node [call .id] "id" [0]

theorem alternativesOf_simple : alternativesOf .simple =
    told ++ [templateAlternative, applyAlternative, nameAlternative] := rfl

theorem refuses_opening {opening : Name × Char} (h : opening ∈ openings)
    (htext : (CharSet.single opening.2).Avoids text) : program.Refuses (call opening.1) text := by
  simp only [openings, List.mem_cons, List.not_mem_nil, or_false] at h
  rcases h with rfl | rfl | rfl | rfl | rfl
  · exact fails_only .literal rfl (.here (refuses_token (refuses_literal htext)))
  · exact fails_only .regex rfl (.here (refuses_token (refuses_regex htext)))
  · exact fails_only .any rfl (.here (refuses_char rfl htext))
  · exact fails_only .variable rfl (.here (refuses_token (refuses_variable htext)))
  · exact fails_only .group rfl (.here (refuses_char rfl htext))

/-- Some of the alternatives refuse a text that starts with none of their characters. -/
theorem failsAll_openings {skipped : List (Name × Char)} (hskipped : skipped ⊆ openings)
    (htext : ∀ opening ∈ skipped, (CharSet.single opening.2).Avoids text) :
    ∀ alternative ∈ skipped.map (fun opening => only (call opening.1)),
      program.FailsAll alternative.items [] text :=
  List.forall_mem_map.2 fun opening hopening =>
    .here (refuses_opening (hskipped hopening) (htext opening hopening))

/-- What comes before an application is refused by what is not a template. -/
theorem failsAll_before_apply
    (htold : ∀ alternative ∈ told, program.FailsAll alternative.items [] text)
    (htemplate : program.Refuses (.look (call .tplHead)) text) :
    ∀ alternative ∈ told ++ [templateAlternative], program.FailsAll alternative.items [] text := by
  intro alternative halternative
  rcases List.mem_append.1 halternative with halternative | halternative
  · exact htold alternative halternative
  · rw [List.mem_singleton.1 halternative]
    exact .here htemplate

/-- What comes before a name is refused by what is neither a template nor an application. -/
theorem failsAll_before_name
    (htold : ∀ alternative ∈ told, program.FailsAll alternative.items [] text)
    (htemplate : program.Refuses (.look (call .tplHead)) text)
    (happly : program.Refuses (.look (call .applyHead)) text) :
    ∀ alternative ∈ told ++ [templateAlternative, applyAlternative],
      program.FailsAll alternative.items [] text := by
  intro alternative halternative
  have hsplit : told ++ [templateAlternative, applyAlternative] =
      (told ++ [templateAlternative]) ++ [applyAlternative] := rfl
  rw [hsplit] at halternative
  rcases List.mem_append.1 halternative with halternative | halternative
  · exact failsAll_before_apply htold htemplate alternative halternative
  · rw [List.mem_singleton.1 halternative]
    exact .here happly

theorem avoids_opening {c : Char} (hc : NameStart c) (cs : List Char) :
    ∀ opening ∈ openings, (CharSet.single opening.2).Avoids (c :: cs) := by
  intro opening hopening
  have hother : ∀ opening ∈ openings, idStartSet.contains opening.2 = false ∧ opening.2 ≠ '`' := by
    decide
  obtain ⟨hname, hquote⟩ := hother opening hopening
  rw [CharSet.avoids_cons, CharSet.contains_single, beq_eq_false_iff_ne]
  rintro rfl
  rcases hc with hc | hc
  · rw [hname] at hc
    cases hc
  · exact hquote hc

/-- A pattern that is told by its first character. -/
theorem reads_opening (skipped : List (Name × Char)) {later : List (Name × Char)} {name : Name}
    {c : Char} (hopenings : openings = skipped ++ (name, c) :: later)
    (hother : ∀ opening ∈ skipped, c ≠ opening.2)
    (h : program.Reads (call name) (c :: word) rest value) :
    program.Reads (call .simple) (c :: word) rest value := by
  have halternatives := alternativesOf_simple
  rw [told, hopenings, List.map_append, List.append_assoc, List.map_cons, List.cons_append]
    at halternatives
  refine reads_call .simple halternatives (failsAll_openings ?_ fun opening hopening => ?_)
    (readsAll_single h) rfl rfl
  · rw [hopenings]
    exact List.subset_append_left _ _
  · rw [List.cons_append, CharSet.avoids_cons, CharSet.contains_single, beq_eq_false_iff_ne]
    exact hother opening hopening

/-- No pattern starts here. -/
theorem refuses_simple {c : Char} (h : ¬ PatternStart c) (cs : List Char) :
    program.Refuses (call .simple) (c :: cs) := by
  have hname : idStartSet.Avoids (c :: cs) := by
    rw [CharSet.avoids_cons, Bool.eq_false_iff]
    exact fun hcontains => h (.inl (.inl hcontains))
  have hquote : (CharSet.single '`').Avoids (c :: cs) := by
    rw [CharSet.avoids_cons, CharSet.contains_single, beq_eq_false_iff_ne]
    exact fun heq => h (.inl (.inr heq))
  have htold : ∀ alternative ∈ told, program.FailsAll alternative.items [] (c :: cs) := by
    refine failsAll_openings (List.Subset.refl _) fun opening hopening => ?_
    rw [CharSet.avoids_cons, CharSet.contains_single, beq_eq_false_iff_ne]
    exact fun heq => h (.inr ⟨opening, hopening, heq.symm⟩)
  have hbefore := failsAll_before_name htold (Program.refuses_look (refuses_tplHead hname hquote))
    (Program.refuses_look (refuses_applyHead hname))
  exact fails_call .simple (show _ = (told ++ [templateAlternative, applyAlternative]) ++
    [nameAlternative] from rfl) hbefore (.here (refuses_name hname))

/-- Characters that come after a pattern and start none. -/
theorem not_patternStart {c : Char} (hc : c ∈ ['|', ';', '%', ')']) : ¬ PatternStart c := by
  simp only [List.mem_cons, List.not_mem_nil, or_false] at hc
  rw [PatternStart, NameStart]
  rcases hc with rfl | rfl | rfl | rfl
  · decide
  · decide
  · decide
  · decide

theorem not_isBlank_of_isAlpha {c : Char} (h : c.isAlpha = true) : isBlank c = false := by
  rw [isAlpha_eq, Bool.or_eq_true, decide_eq_true_iff, Bool.and_eq_true, decide_eq_true_iff,
    decide_eq_true_iff] at h
  have hbounds : 65 ≤ c.toNat ∧ c.toNat ≤ 122 := by
    rcases h with ⟨hlow, hhigh⟩ | ⟨hlow, hhigh⟩
    · have hlow : 'A'.toNat ≤ c.toNat := hlow
      have hhigh : c.toNat ≤ 'Z'.toNat := hhigh
      exact ⟨hlow, hhigh.trans (by decide)⟩
    · have hlow : 'a'.toNat ≤ c.toNat := hlow
      have hhigh : c.toNat ≤ 'z'.toNat := hhigh
      exact ⟨Nat.le_trans (by decide) hlow, hhigh⟩
  simp only [isBlank, Bool.or_eq_false_iff, Bool.and_eq_false_iff, beq_eq_false_iff_ne,
    decide_eq_false_iff_not]
  omega

/-- No pattern starts with a blank, with a dash or with the mark of a member. -/
theorem PatternStart.starts {c : Char} (h : PatternStart c) :
    isBlank c = false ∧ c ≠ '-' ∧ c ≠ '!' := by
  rcases h with (h | rfl) | ⟨opening, hopening, rfl⟩
  · rw [contains_idStartSet, Bool.or_eq_true, beq_iff_eq] at h
    rcases h with h | rfl
    · refine ⟨not_isBlank_of_isAlpha h, ?_, ?_⟩
      · rintro rfl
        exact absurd h (by decide)
      · rintro rfl
        exact absurd h (by decide)
    · decide
  · decide
  · have hother : ∀ opening ∈ openings,
        isBlank opening.2 = false ∧ opening.2 ≠ '-' ∧ opening.2 ≠ '!' := by decide
    exact hother opening hopening

/-! ### Single patterns -/

theorem reads_literal_pattern (string : String) (rest : List Char) :
    program.Reads (call .simple) (Token.encodeLiteral string).toList rest
      (.node "literal" {} [.str (Token.encodeLiteral string)]) := by
  have hword : (Token.encodeLiteral string).toList =
      '\'' :: (string.toList.flatMap Token.escapeChar ++ ['\'']) := String.toList_ofList
  have htoken := reads_token (reads_literal (Token.escaped_flatMap string.toList) rest)
  rw [← hword, String.ofList_toList, hword] at htoken
  rw [hword]
  exact reads_opening [] rfl nofun (reads_only .literal rfl (readsAll_single htoken) rfl rfl)

theorem reads_regex_pattern {source flags : String} (hsource : RegexSource source.toList)
    (hflags : RegexFlags flags.toList) (hrest : Apart rest) :
    program.Reads (call .simple) (Token.encodeRegex source flags).toList rest
      (.node "regex" {} [.str (Token.encodeRegex source flags)]) := by
  have hword : (Token.encodeRegex source flags).toList =
      '/' :: (Token.escapeSlashes source.toList ++ '/' :: flags.toList) := String.toList_ofList
  have htoken := reads_token (reads_regex (Token.escaped_escapeSlashes hsource)
    (Token.covers_flags_iff.2 hflags) hrest.flags)
  rw [← hword, String.ofList_toList, hword] at htoken
  rw [hword]
  exact reads_opening [(.literal, '\'')] rfl (by decide)
    (reads_only .regex rfl (readsAll_single htoken) rfl rfl)

theorem reads_any_pattern (rest : List Char) :
    program.Reads (call .simple) ['.'] rest (.node "any" {} []) :=
  reads_opening [(.literal, '\''), (.regex, '/')] rfl (by decide)
    (reads_only .any rfl (readsAll_single (reads_char "." '.' rfl rest)) rfl rfl)

theorem reads_variable_pattern (index : Nat) (hrest : Apart rest) :
    program.Reads (call .simple) (Token.encodeVariable index).toList rest
      (.node "variable" {} [.str (Token.encodeVariable index)]) := by
  have hword := Token.toList_encodeVariable index
  have htoken := reads_token
    (reads_variable (Token.covers_toDigits index) Nat.toDigits_ne_nil hrest.digits)
  rw [← hword, String.ofList_toList, hword] at htoken
  rw [hword]
  exact reads_opening [(.literal, '\''), (.regex, '/'), (.any, '.')] rfl (by decide)
    (reads_only .variable rfl (readsAll_single htoken) rfl rfl)

/-! ### Names, templates and applications -/

/-- The alternatives told by their first character refuse names and templates. -/
theorem failsAll_told (h : ∃ c cs, text = c :: cs ∧ NameStart c) :
    ∀ alternative ∈ told, program.FailsAll alternative.items [] text := by
  obtain ⟨c, cs, rfl, hc⟩ := h
  exact failsAll_openings (List.Subset.refl _) (avoids_opening hc cs)

theorem nameStart_of_isIdentifier {name : String} (h : IsIdentifier name) (rest : List Char) :
    ∃ c cs, name.toList ++ rest = c :: cs ∧ NameStart c := by
  obtain ⟨c, cs, hname, hc, -⟩ := isIdentifier_iff.1 h
  exact ⟨c, cs ++ rest, by rw [hname, List.cons_append], .inl hc⟩

theorem nameStart_of_template {function : Option String}
    (h : ∀ name ∈ function, IsIdentifier name) (rest : List Char) :
    ∃ c cs, (function.getD "").toList ++ '`' :: rest = c :: cs ∧ NameStart c := by
  cases function with
  | none => exact ⟨'`', rest, rfl, .inr rfl⟩
  | some name => exact nameStart_of_isIdentifier (h name rfl) _

/-- A name that is neither a template nor an application. -/
theorem reads_name_pattern {name : String} (h : IsIdentifier name) (hrest : Apart rest) :
    program.Reads (call .simple) name.toList rest (.node "id" {} [.str name]) := by
  have hbefore := failsAll_before_name (failsAll_told (nameStart_of_isIdentifier h rest))
    (Program.refuses_look (fails_tplHead_name h hrest.name hrest.quote))
    (Program.refuses_look (fails_applyHead_name h hrest.name hrest.paren))
  exact reads_call .simple (show _ = (told ++ [templateAlternative, applyAlternative]) ++
    nameAlternative :: [] from rfl) hbefore (readsAll_single (reads_name h hrest.name)) rfl rfl

theorem reads_template_pattern {function : Option String}
    (h : ∀ name ∈ function, IsIdentifier name) {body : String} (hbody : '`' ∉ body.toList)
    (rest : List Char) :
    program.Reads (call .simple) ((function.getD "").toList ++ '`' :: (body.toList ++ ['`'])) rest
      (.node "template" {} [.ofText function, .str body]) := by
  have hcovers : (except '`').Covers body.toList := by
    intro c hc
    rw [contains_except, bne_iff_ne]
    rintro rfl
    exact hbody hc
  have htoken := reads_token
    (reads_template hcovers (CharSet.avoids_cons.2 (by decide) : (except '`').Avoids ('`' :: rest)))
  rw [String.ofList_toList] at htoken
  have hend := Program.ReadsAll.cons htoken (readsAll_single (reads_char "`" '`' rfl rest))
  have hbody := Program.ReadsAll.cons (reads_char "`" '`' rfl _) hend
  have hitems := Program.ReadsAll.cons
    (reads_optional_name h (body.toList ++ ['`'] ++ rest)) hbody
  have htemplate : program.Reads (call .template)
      ((function.getD "").toList ++ '`' :: (body.toList ++ ['`'])) rest
      (.node "template" {} [.ofText function, .str body]) :=
    reads_only .template rfl hitems rfl rfl
  -- what is looked ahead for is the beginning of the same text
  have hahead := reads_tplHead h (body.toList ++ ['`'] ++ rest)
  have hstart := nameStart_of_template h (body.toList ++ ['`'] ++ rest)
  rw [← List.cons_append, ← List.append_assoc] at hstart
  exact reads_call .simple alternativesOf_simple (failsAll_told hstart)
    (readsAll_look hahead htemplate (by simp)) rfl rfl

theorem reads_apply_pattern {function : String} (h : IsIdentifier function)
    (hsolid : Solid (word ++ ')' :: rest))
    (hinner : program.Reads (call .simple) word (')' :: rest) value) :
    program.Reads (call .simple) (function.toList ++ '(' :: (word ++ [')'])) rest
      (.node "apply" {} [.str function, value]) := by
  have hquote : CharSet.Avoids (.single '`') ('(' :: (word ++ ')' :: rest)) :=
    CharSet.avoids_cons.2 (by decide)
  have hname : idSet.Avoids ('(' :: (word ++ ')' :: rest)) := CharSet.avoids_cons.2 (by decide)
  have hclose : Solid (')' :: rest) := solid_cons (by decide) (by decide)
  -- the blanks on either side of the inner pattern are empty
  have hparen := readsAll_single (reads_char ")" ')' rfl rest)
  have hend := Program.ReadsAll.cons (reads_ws_nil hclose) hparen
  have hbody := Program.ReadsAll.cons hinner hend
  have hopen := Program.ReadsAll.cons (reads_ws_nil (by simpa using hsolid)) hbody
  have hitems : program.ReadsAll _ (function.toList ++ '(' :: (word ++ [')'])) rest _ :=
    .cons (reads_name h (by simpa using hname)) (.cons (reads_char "(" '(' rfl _) hopen)
  have happly : program.Reads (call .apply) (function.toList ++ '(' :: (word ++ [')'])) rest
      (.node "apply" {} [.str function, value]) := reads_only .apply rfl hitems rfl rfl
  -- it starts with a name, but is neither told by its first character nor a template
  have htold := failsAll_told (nameStart_of_isIdentifier h ('(' :: (word ++ [')']) ++ rest))
  have htemplate := Program.refuses_look (fails_tplHead_name h hname hquote)
  have hbefore := failsAll_before_apply (by simpa using htold) htemplate
  exact reads_call .simple (show _ = (told ++ [templateAlternative]) ++
    applyAlternative :: [nameAlternative] from rfl) (by simpa using hbefore)
    (readsAll_look (reads_applyHead h (word ++ ')' :: rest)) happly (by simp)) rfl rfl

end Peg.Meta
