/-
Peg/Proofs/Grammar/Reading.lean

How the small rules of the grammar of grammars read.

Names, blanks and the tokens are read by rules of one alternative, and the two
lookaheads tell a template and an application from a name.  What each of them
reads depends on what follows, and each of them refuses a text by its first
character; both kinds of facts are stated here, so that the rules for patterns
only put them together.
-/
import Peg.Proofs.Grammar.Layout
import Peg.Proofs.Grammar.SyntaxTree
import Peg.Proofs.Program.Reads

namespace Peg

open Text Regex

/-! ### Words put together -/

namespace Program

variable {program : Program} {m : Matcher} {word word' rest : List Char} {value : Value}
  {items : List Matcher} {values : List Value}

theorem Reads.of_eq (h : program.Reads m word rest value) (hword : word = word') :
    program.Reads m word' rest value :=
  hword ▸ h

theorem ReadsAll.of_eq (h : program.ReadsAll items word rest values) (hword : word = word') :
    program.ReadsAll items word' rest values :=
  hword ▸ h

/-- Several matches are at least one if there are any values. -/
theorem ReadsMany.oneOrMore (h : program.ReadsMany m word rest values) (hne : values ≠ []) :
    program.Reads (.repeated m .oneOrMore) word rest (.list values) := by
  cases h with
  | nil h => exact absurd rfl hne
  | cons h hword hmany => exact reads_oneOrMore h hmany

end Program

namespace Meta

variable {word rest text : List Char} {value : Value} {values : List Value}
  {skipped others : List CompiledAlternative} {alternative : CompiledAlternative}

/-! ### Rules and tokens -/

theorem reads_call (name : Name)
    (halternatives : alternativesOf name = skipped ++ alternative :: others)
    (hskipped : ∀ alternative ∈ skipped, program.FailsAll alternative.items [] (word ++ rest))
    (h : program.ReadsAll alternative.items word rest values)
    (hpositionless : alternative.isPositionless = true)
    (hvalue : alternative.shape values word = value) :
    program.Reads (call name) word rest value :=
  hvalue ▸ Program.reads_rule (rules_number name) rfl halternatives hskipped h hpositionless

theorem fails_call (name : Name) (halternatives : alternativesOf name = skipped ++ [alternative])
    (hskipped : ∀ alternative ∈ skipped, program.FailsAll alternative.items [] (word ++ rest))
    (h : program.FailsAll alternative.items word rest) : program.Fails (call name) word rest :=
  Program.fails_rule (rules_number name) rfl halternatives hskipped h

/-- A rule of one alternative. -/
theorem reads_only (name : Name) (halternatives : alternativesOf name = [alternative])
    (h : program.ReadsAll alternative.items word rest values)
    (hpositionless : alternative.isPositionless = true)
    (hvalue : alternative.shape values word = value) :
    program.Reads (call name) word rest value :=
  reads_call name (show _ = [] ++ _ from halternatives) nofun h hpositionless hvalue

theorem fails_only (name : Name) (halternatives : alternativesOf name = [alternative])
    (h : program.FailsAll alternative.items word rest) : program.Fails (call name) word rest :=
  fails_call name (show _ = [] ++ _ from halternatives) nofun h

/-- A single item. -/
theorem readsAll_single {m : Matcher} (h : program.Reads m word rest value) :
    program.ReadsAll [m] word rest [value] :=
  (Program.ReadsAll.cons h (.nil rest)).of_eq (List.append_nil word)

/-- A lookahead before an item. -/
theorem readsAll_look {ahead m : Matcher} {head tail : List Char} {value' : Value}
    (hahead : program.Reads ahead head tail value') (h : program.Reads m word rest value)
    (htext : head ++ tail = word ++ rest) :
    program.ReadsAll [.look ahead, m] word rest [value', value] := by
  have hlook := Program.reads_look hahead
  rw [htext] at hlook
  exact .cons hlook (readsAll_single h)

/-- Items of which the second one refuses. -/
theorem failsAll_second {m m' : Matcher} {items : List Matcher}
    (h : program.Reads m word rest value) (h' : program.Refuses m' rest) :
    program.FailsAll (m :: m' :: items) word rest := by
  have hitems : program.FailsAll (m :: m' :: items) (word ++ []) rest :=
    .after (show program.Reads m word ([] ++ rest) value from h) (.here h')
  rw [List.append_nil] at hitems
  exact hitems

theorem reads_token {token : Token} (h : token.expression.Reads word rest) :
    program.Reads token.matcher word rest (.str (String.ofList word)) :=
  Program.reads_regex ((matchLength?_textStart _ _).trans (h none))

theorem refuses_token {token : Token} (h : token.expression.Refuses text) :
    program.Refuses token.matcher text :=
  Program.refuses_regex ((matchLength?_textStart _ _).trans (h none))

theorem reads_char (string : String) (c : Char) (hstring : string.toList = [c])
    (rest : List Char) : program.Reads (.literal string) [c] rest (.str string) :=
  hstring ▸ Program.reads_literal program string rest

theorem refuses_char {string : String} {c : Char} (hstring : string.toList = [c])
    (h : (CharSet.single c).Avoids text) : program.Refuses (.literal string) text := by
  refine Program.refuses_literal ?_
  rw [hstring]
  rintro ⟨rest, rfl⟩
  have hc := h c rfl
  rw [CharSet.contains_single] at hc
  simp at hc

/-! ### Names and blanks -/

theorem reads_name {name : String} (h : IsIdentifier name) (hrest : idSet.Avoids rest) :
    program.Reads (call .id) name.toList rest (.str name) := by
  obtain ⟨c, cs, hname, hc, hcs⟩ := isIdentifier_iff.1 h
  have htoken : program.Reads Token.id.matcher name.toList rest (.str name) := by
    have hread := reads_token (reads_id hc hcs hrest)
    rw [← hname, String.ofList_toList] at hread
    exact hread
  exact reads_only .id rfl (readsAll_single htoken) rfl rfl

theorem refuses_name (h : idStartSet.Avoids text) : program.Refuses (call .id) text :=
  fails_only .id rfl (.here (refuses_token (refuses_id h)))

theorem reads_ws (hword : (CharSet.named .blank).Covers word) (hrest : Solid rest) :
    program.Reads (call .ws) word rest (.str (String.ofList word)) :=
  reads_only .ws rfl
    (readsAll_single (reads_token (Reads.blanks_token (reads_blanks hword hrest)))) rfl rfl

theorem reads_ws_nil (hrest : Solid rest) : program.Reads (call .ws) [] rest (.str "") := by
  have hnil : (CharSet.named .blank).Covers [] := nofun
  exact reads_ws hnil hrest

/-- A name that may be absent, before a backquote. -/
theorem reads_optional_name {function : Option String} (h : ∀ name ∈ function, IsIdentifier name)
    (rest : List Char) : program.Reads (optional (call .id)) (function.getD "").toList ('`' :: rest)
      (.ofText function) := by
  cases function with
  | none => exact Program.reads_optional_absent (refuses_name (CharSet.avoids_cons.2 (by decide)))
  | some name =>
    exact Program.reads_optional (reads_name (h name rfl) (CharSet.avoids_cons.2 (by decide)))

/-! ### Lookaheads -/

/-- A template is ahead. -/
theorem reads_tplHead {function : Option String} (h : ∀ name ∈ function, IsIdentifier name)
    (rest : List Char) : program.Reads (call .tplHead) ((function.getD "").toList ++ ['`']) rest
      (.tuple [.ofText function, .str "`"]) :=
  reads_only .tplHead rfl
    (.cons (reads_optional_name h rest) (readsAll_single (reads_char "`" '`' rfl rest)))
    rfl rfl

/-- No template is ahead after a name without a backquote. -/
theorem fails_tplHead_name {name : String} (h : IsIdentifier name) (hrest : idSet.Avoids rest)
    (hquote : (CharSet.single '`').Avoids rest) : program.Fails (call .tplHead) name.toList rest :=
  fails_only .tplHead rfl
    (failsAll_second (Program.reads_optional (reads_name h hrest)) (refuses_char rfl hquote))

/-- No template is ahead at a text that starts with neither. -/
theorem refuses_tplHead (hname : idStartSet.Avoids text)
    (hquote : (CharSet.single '`').Avoids text) : program.Refuses (call .tplHead) text :=
  fails_only .tplHead rfl
    (failsAll_second (Program.reads_optional_absent (refuses_name hname)) (refuses_char rfl hquote))

/-- An application is ahead. -/
theorem reads_applyHead {name : String} (h : IsIdentifier name) (rest : List Char) :
    program.Reads (call .applyHead) (name.toList ++ ['(']) rest (.tuple [.str name, .str "("]) :=
  reads_only .applyHead rfl
    (.cons (reads_name h (CharSet.avoids_cons.2 (by decide)))
      (readsAll_single (reads_char "(" '(' rfl rest))) rfl rfl

theorem fails_applyHead_name {name : String} (h : IsIdentifier name) (hrest : idSet.Avoids rest)
    (hparen : (CharSet.single '(').Avoids rest) :
    program.Fails (call .applyHead) name.toList rest :=
  fails_only .applyHead rfl (failsAll_second (reads_name h hrest) (refuses_char rfl hparen))

theorem refuses_applyHead (h : idStartSet.Avoids text) : program.Refuses (call .applyHead) text :=
  fails_only .applyHead rfl (.here (refuses_name h))

end Meta

end Peg
