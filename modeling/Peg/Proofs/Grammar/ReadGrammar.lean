/-
Peg/Proofs/Grammar/ReadGrammar.lean

How written grammars are read.

The text of a pasta block is read character by character until the end of the
block, so it must not contain one.  Blocks and rules are told apart by their
first character, and each of them reads the blanks after it; the empty line
between the blocks and the rules belongs to the last block.
-/
import Peg.Proofs.Grammar.ReadRule

namespace Peg.Meta

open Text Regex

variable {word blanks rest text : List Char} {value : Value}

/-! ### Pasta blocks -/

/-- The end of a pasta block. -/
def pastaEnd : List Char :=
  ['\x7d', '%']

theorem toList_pastaEnd : "\x7d%".toList = pastaEnd := rfl

/-- The end of a block is not read earlier than it is written. -/
theorem pastaEnd_not_begins {cs : List Char} (h : ¬ pastaEnd <:+: cs) (hne : cs ≠ [])
    (rest : List Char) : ¬ pastaEnd <+: cs ++ (pastaEnd ++ rest) := by
  rintro hbegins
  rcases cs with - | ⟨c, cs⟩
  · exact hne rfl
  · obtain ⟨hc, hbegins⟩ := List.cons_prefix_cons.1 hbegins
    cases cs with
    | nil => exact absurd (List.cons_prefix_cons.1 hbegins).1 (by decide)
    | cons d cs =>
      obtain ⟨hd, -⟩ := List.cons_prefix_cons.1 hbegins
      exact h ⟨[], cs, by rw [← hc, ← hd]; rfl⟩

/-- Code that does not contain the end of a block is read character by character up to it. -/
theorem readsMany_pasta {code : List Char} (h : ¬ pastaEnd <:+: code) (rest : List Char) :
    program.ReadsMany (.negative (.literal "\x7d%")) code (pastaEnd ++ rest)
      (code.map fun c => .str c.toString) := by
  induction code with
  | nil => exact .nil (Program.refuses_negative (Program.reads_literal program "\x7d%" rest))
  | cons c code ih =>
    have hc : program.Refuses (.literal "\x7d%") (c :: (code ++ (pastaEnd ++ rest))) :=
      Program.refuses_literal (pastaEnd_not_begins h (List.cons_ne_nil c code) rest)
    have hcode : ¬ pastaEnd <:+: code := fun hinside =>
      h (hinside.trans (List.suffix_cons c code).isInfix)
    exact .cons (Program.reads_negative hc) (List.cons_ne_nil c []) (ih hcode)

theorem toList_format_pasta (pasta : Pasta) :
    pasta.format.toList = "%\x7b".toList ++ (pasta.code.toList ++ pastaEnd) := by
  rw [Pasta.format, String.toList_append, String.toList_append, List.append_assoc, toList_pastaEnd]

/-- A printed block is read back with its code unchanged. -/
theorem reads_pasta {pasta : Pasta} (h : pasta.Printable)
    (hblanks : (CharSet.named .blank).Covers blanks) (hrest : Solid rest) :
    program.Reads (call .pasta) (pasta.format.toList ++ blanks) rest pasta.tree := by
  have htext : program.Reads (call .pastaText) pasta.code.toList (pastaEnd ++ blanks ++ rest)
      (.str (String.ofList pasta.code.toList)) := by
    have hmany := Program.reads_any (readsMany_pasta h (blanks ++ rest))
    rw [← List.append_assoc] at hmany
    refine reads_only .pastaText rfl (readsAll_single hmany) rfl rfl
  rw [String.ofList_toList] at htext
  have hend := Program.ReadsAll.cons (Program.reads_literal program "\x7d%" (blanks ++ rest))
    (readsAll_single (reads_ws hblanks hrest))
  have hitems := Program.ReadsAll.cons (Program.reads_literal program "%\x7b" _)
    (Program.ReadsAll.cons htext hend)
  refine (reads_only .pasta rfl hitems rfl rfl).of_eq ?_
  rw [toList_format_pasta, List.append_assoc, List.append_assoc]

/-- A printed block begins with neither a blank nor a dash. -/
theorem starts_pasta (pasta : Pasta) : Starts pasta.format.toList := by
  rw [toList_format_pasta]
  exact starts_cons (by decide) (by decide)

/-! ### Items -/

/-- Text that does not begin with a percent sign is no block. -/
theorem refuses_pasta (h : (CharSet.single '%').Avoids text) :
    program.Refuses (call .pasta) text := by
  refine fails_only .pasta rfl (.here (Program.refuses_literal ?_))
  rintro ⟨cs, rfl⟩
  exact absurd (h '%' rfl) (by decide)

theorem starts_rule {rule : Rule} (h : rule.Printable) : Starts rule.format.toList := by
  obtain ⟨c, cs, hrule, hc⟩ := nameStart_of_rule h
  obtain ⟨hblank, hdash, -⟩ := PatternStart.starts (.inl hc)
  exact ⟨c, cs, hrule, hblank, hdash⟩

theorem reads_item_pasta {pasta : Pasta} (h : pasta.Printable)
    (hblanks : (CharSet.named .blank).Covers blanks) (hrest : Solid rest) :
    program.Reads (call .item) (pasta.format.toList ++ blanks) rest pasta.tree :=
  reads_call .item (show _ = [] ++ _ :: [_] from rfl) nofun
    (readsAll_single (reads_pasta h hblanks hrest)) rfl rfl

theorem reads_item_rule {rule : Rule} (h : rule.Printable)
    (hblanks : (CharSet.named .blank).Covers blanks) (hrest : Solid rest) :
    program.Reads (call .item) (rule.format.toList ++ blanks) rest rule.tree := by
  refine reads_call .item (show _ = [_] ++ _ :: [] from rfl) ?_
    (readsAll_single (reads_rule h hblanks hrest)) rfl rfl
  intro alternative halternative
  rw [List.mem_singleton.1 halternative]
  refine .here (refuses_pasta ?_)
  obtain ⟨c, cs, hrule, hc⟩ := nameStart_of_rule h
  rw [hrule, List.cons_append, List.cons_append, CharSet.avoids_cons, CharSet.contains_single,
    beq_eq_false_iff_ne]
  rintro rfl
  exact not_patternStart (by decide : '%' ∈ _) (.inl hc)

/-- Nothing is left after the last item. -/
theorem refuses_item_nil : program.Refuses (call .item) [] := by
  have hnil : idStartSet.Avoids [] := nofun
  have hrule : program.Refuses (call .rule) [] := by
    refine fails_call .rule (show _ = [_] ++ [_] from rfl) ?_ (.here (refuses_name hnil))
    intro alternative halternative
    rw [List.mem_singleton.1 halternative]
    exact .here (Program.refuses_look (refuses_tplHead hnil nofun))
  refine fails_call .item (show _ = [_] ++ [_] from rfl) ?_ (.here hrule)
  intro alternative halternative
  rw [List.mem_singleton.1 halternative]
  exact .here (refuses_pasta nofun)

/-! ### Grammars -/

/-- The rules, a line each or more. -/
def rulesWord (rules : List Rule) : List Char :=
  rules.flatMap fun rule => rule.format.toList ++ ['\n']

/-- The blocks, with a separator after the last one. -/
def pastasWord (separator : List Char) : List Pasta → List Char
  | [] => []
  | pasta :: pastas => pasta.format.toList ++ '\n' :: (if pastas.isEmpty then separator else []) ++
      pastasWord separator pastas

theorem covers_lineFeed (h : (CharSet.named .blank).Covers blanks) :
    (CharSet.named .blank).Covers ('\n' :: blanks) :=
  CharSet.covers_cons.2 ⟨by decide, h⟩

theorem solid_rulesWord {rules : List Rule} (h : ∀ rule ∈ rules, rule.Printable) :
    Solid (rulesWord rules) := by
  cases rules with
  | nil => exact solid_nil
  | cons rule rules =>
    have hstart := starts_rule (h rule (List.mem_cons_self ..))
    exact ((hstart.append ['\n']).append (rulesWord rules)).solid

/-- Printed rules are read back one after the other. -/
theorem readsMany_rules {rules : List Rule} (h : ∀ rule ∈ rules, rule.Printable) :
    program.ReadsMany (call .item) (rulesWord rules) [] (rules.map Rule.tree) := by
  induction rules with
  | nil => exact .nil refuses_item_nil
  | cons rule rules ih =>
    obtain ⟨hrule, hrules⟩ := List.forall_mem_cons.1 h
    have hnil : (CharSet.named .blank).Covers [] := nofun
    have hsolid : Solid (rulesWord rules ++ []) := by
      rw [List.append_nil]
      exact solid_rulesWord hrules
    exact .cons (reads_item_rule hrule (covers_lineFeed hnil) hsolid)
      ((starts_rule hrule).append ['\n']).ne_nil (ih hrules)

theorem solid_items {separator : List Char} {pastas : List Pasta} {rules : List Rule}
    (h : ∀ rule ∈ rules, rule.Printable) :
    Solid (pastasWord separator pastas ++ rulesWord rules) := by
  cases pastas with
  | nil => exact solid_rulesWord h
  | cons pasta pastas =>
    rw [pastasWord, List.append_assoc, List.append_assoc]
    exact ((starts_pasta pasta).append _).solid

/-- Blocks are printed before rules, and read back in this order. -/
theorem readsMany_items {separator : List Char}
    (hseparator : (CharSet.named .blank).Covers separator) {pastas : List Pasta} {rules : List Rule}
    (hpastas : ∀ pasta ∈ pastas, pasta.Printable) (hrules : ∀ rule ∈ rules, rule.Printable) :
    program.ReadsMany (call .item) (pastasWord separator pastas ++ rulesWord rules) []
      (pastas.map Pasta.tree ++ rules.map Rule.tree) := by
  induction pastas with
  | nil => exact readsMany_rules hrules
  | cons pasta pastas ih =>
    obtain ⟨hpasta, hothers⟩ := List.forall_mem_cons.1 hpastas
    have hblanks : (CharSet.named .blank).Covers (if pastas.isEmpty then separator else []) := by
      split
      · exact hseparator
      · nofun
    have hsolid : Solid (pastasWord separator pastas ++ rulesWord rules ++ []) := by
      rw [List.append_nil]
      exact solid_items hrules
    rw [pastasWord, List.append_assoc]
    exact .cons (reads_item_pasta hpasta (covers_lineFeed hblanks) hsolid)
      ((starts_pasta pasta).append _).ne_nil (ih hothers)

/-- The empty line between the blocks and the rules. -/
def separatorOf (grammar : Grammar) : List Char :=
  if grammar.pastas.isEmpty || grammar.rules.isEmpty then [] else ['\n']

theorem pastasWord_eq (separator : List Char) (pasta : Pasta) (pastas : List Pasta) :
    pastasWord separator (pasta :: pastas) =
      (pasta :: pastas).flatMap (fun pasta => pasta.format.toList ++ ['\n']) ++ separator := by
  induction pastas generalizing pasta with
  | nil => simp [pastasWord]
  | cons next pastas ih =>
    rw [pastasWord, ih next, List.flatMap_cons]
    simp

/-- The text of a grammar is that of its blocks, an empty line if there are both, and that of its
rules. -/
theorem toList_format_grammar (grammar : Grammar) : grammar.format.toList =
    pastasWord (separatorOf grammar) grammar.pastas ++ rulesWord grammar.rules := by
  have hseparator : (if grammar.pastas.isEmpty || grammar.rules.isEmpty then "" else "\n").toList =
      separatorOf grammar := by
    rw [separatorOf]
    split
    · rfl
    · rfl
  rw [Grammar.format, String.toList_append, String.toList_append, String.toList_join,
    String.toList_join, List.flatMap_map, List.flatMap_map, hseparator]
  simp only [String.toList_append]
  obtain ⟨pastas, rules⟩ := grammar
  cases pastas with
  | nil => rfl
  | cons pasta pastas => exact congrArg (· ++ rulesWord rules) (pastasWord_eq _ pasta pastas).symm

/-- The text of a grammar is read back as the tree of the grammar. -/
theorem reads_grammar {grammar : Grammar} (h : grammar.Printable) :
    program.Reads (call .grammar) grammar.format.toList [] grammar.tree := by
  have hseparator : (CharSet.named .blank).Covers (separatorOf grammar) := by
    rw [separatorOf]
    split
    · nofun
    · exact covers_lineFeed nofun
  have hmany := Program.reads_any (readsMany_items hseparator h.pastas h.rules)
  have hsolid : Solid (pastasWord (separatorOf grammar) grammar.pastas ++ rulesWord grammar.rules ++
      []) := by
    rw [List.append_nil]
    exact solid_items h.rules
  have hitems := Program.ReadsAll.cons (reads_ws_nil hsolid) (readsAll_single hmany)
  rw [toList_format_grammar]
  exact reads_only .grammar rfl hitems rfl rfl

end Peg.Meta
