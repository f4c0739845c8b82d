/-
Peg/Proofs/Grammar/Printable.lean

Grammars that can be written down.

A grammar is data, and most of its texts have to be of a certain form to be
read back: a rule whose name is not an identifier can be built but not
written.  `Grammar.Printable` collects these forms, one for each kind of text.
Literals have no condition; their escapes take care of everything.

Where a grammar was read from is not part of what is written, so grammars are
compared with their spans erased.
-/
import Peg.Grammar.Basic
import Peg.Grammar.Token

namespace Peg

open Text

/-! ### Spans erased -/

mutual

/-- A pattern without its spans. -/
def Pattern.eraseSpans : Pattern → Pattern
  | .literal string _ => .literal string {}
  | .regex source flags _ => .regex source flags {}
  | .any _ => .any {}
  | .name name _ => .name name {}
  | .variable index _ => .variable index {}
  | .template function body _ => .template function body {}
  | .apply function pattern _ => .apply function pattern.eraseSpans {}
  | .group items _ => .group (eraseSpansOfItems items) {}

/-- A member of a group without its spans. -/
def GroupItem.eraseSpans : GroupItem → GroupItem
  | .mk important pattern repetition _ => .mk important pattern.eraseSpans repetition {}

/-- The members of a group without their spans. -/
def eraseSpansOfItems : List GroupItem → List GroupItem
  | [] => []
  | item :: items => item.eraseSpans :: eraseSpansOfItems items

end

def Item.eraseSpans (item : Item) : Item :=
  ⟨item.pattern.eraseSpans, item.repetition, {}⟩

def MapperCode.eraseSpans (mapper : MapperCode) : MapperCode :=
  ⟨mapper.code, {}⟩

def Alternative.eraseSpans (alternative : Alternative) : Alternative :=
  ⟨alternative.items.map Item.eraseSpans, alternative.mapper.map MapperCode.eraseSpans, {}⟩

def Rule.eraseSpans (rule : Rule) : Rule :=
  ⟨rule.head, rule.type, rule.alternatives.map Alternative.eraseSpans, {}⟩

def Pasta.eraseSpans (pasta : Pasta) : Pasta :=
  ⟨pasta.code, {}⟩

/-- A grammar without its spans. -/
def Grammar.eraseSpans (grammar : Grammar) : Grammar :=
  ⟨grammar.pastas.map Pasta.eraseSpans, grammar.rules.map Rule.eraseSpans⟩

/-! ### Texts -/

/-- A letter or an underscore, then letters, digits and underscores. -/
def IsIdentifier (name : String) : Prop :=
  ∃ c cs, name.toList = c :: cs ∧ (c.isAlpha || c == '_') = true ∧
    ∀ c ∈ cs, (c.isAlphanum || c == '_') = true

/-- Characters of the line, and pairs of a backslash and a character of the line.  A slash needs
no backslash before it, and has none. -/
inductive RegexSource : List Char → Prop where
  | nil : RegexSource []
  | plain {c : Char} {cs : List Char} (hbackslash : c ≠ '\\') (hline : c ≠ '\n')
      (h : RegexSource cs) : RegexSource (c :: cs)
  | pair {c : Char} {cs : List Char} (hslash : c ≠ '/') (hline : c ≠ '\n')
      (h : RegexSource cs) : RegexSource ('\\' :: c :: cs)

/-- Flags of regular expressions. -/
def RegexFlags (flags : List Char) : Prop :=
  ∀ c ∈ flags, c = 'i' ∨ c = 's'

/-- A trimmed text that ends before the rule goes on and does not look like a comment. -/
structure IsTypeText (type : List Char) : Prop where
  nonempty : type ≠ []
  trimmed : trim type = type
  ends : ∀ c ∈ type, c ≠ '=' ∧ c ≠ ';'
  solid : ¬ ['-', '-'] <+: type

/-- A normalized text whose later lines are taken for lines of the mapper. -/
structure IsMapperText (code : String) : Prop where
  nonempty : code ≠ ""
  normalized : ∃ raw, Token.normalizeMapper raw = code
  lines : ∀ line ∈ (splitOn '\n' code.toList).tail, ∀ c ∈ line.head?, c ≠ '|' ∧ c ≠ ';' ∧ c ≠ '-'

/-! ### Grammars -/

mutual

/-- A pattern that can be written.  The index of a variable is a machine word. -/
def Pattern.Printable : Pattern → Prop
  | .literal _ _ | .any _ => True
  | .regex source flags _ => RegexSource source.toList ∧ RegexFlags flags.toList
  | .name name _ => IsIdentifier name
  | .variable index _ => index < UInt64.size
  | .template function body _ => (∀ name ∈ function, IsIdentifier name) ∧ '`' ∉ body.toList
  | .apply function pattern _ => IsIdentifier function ∧ pattern.Printable
  | .group items _ => items ≠ [] ∧ AllPrintable items

/-- A member of a group that can be written. -/
def GroupItem.Printable : GroupItem → Prop
  | .mk _ pattern _ _ => pattern.Printable

/-- Members of a group that can be written. -/
def AllPrintable : List GroupItem → Prop
  | [] => True
  | item :: items => item.Printable ∧ AllPrintable items

end

def Item.Printable (item : Item) : Prop :=
  item.pattern.Printable

structure Alternative.Printable (alternative : Alternative) : Prop where
  nonempty : alternative.items ≠ []
  items : ∀ item ∈ alternative.items, item.Printable
  mapper : ∀ mapper ∈ alternative.mapper, IsMapperText mapper.code

def RuleHead.Printable : RuleHead → Prop
  | .simple name => IsIdentifier name
  | .template function param => (∀ name ∈ function, IsIdentifier name) ∧ IsIdentifier param

structure Rule.Printable (rule : Rule) : Prop where
  head : rule.head.Printable
  type : ∀ type ∈ rule.type, IsTypeText type.toList
  nonempty : rule.alternatives ≠ []
  alternatives : ∀ alternative ∈ rule.alternatives, alternative.Printable

/-- A block ends where its end is first written. -/
def Pasta.Printable (pasta : Pasta) : Prop :=
  ¬ "\x7d%".toList <:+: pasta.code.toList

/-- A grammar that can be written. -/
structure Grammar.Printable (grammar : Grammar) : Prop where
  pastas : ∀ pasta ∈ grammar.pastas, pasta.Printable
  rules : ∀ rule ∈ grammar.rules, rule.Printable

/-! ### Lists of members -/

theorem eraseSpansOfItems_eq_map (items : List GroupItem) :
    eraseSpansOfItems items = items.map GroupItem.eraseSpans := by
  induction items with
  | nil => rfl
  | cons item items ih => rw [eraseSpansOfItems, ih, List.map_cons]

theorem allPrintable_iff {items : List GroupItem} :
    AllPrintable items ↔ ∀ item ∈ items, item.Printable := by
  induction items with
  | nil => simp [AllPrintable]
  | cons item items ih => rw [AllPrintable, ih, List.forall_mem_cons]

/-! ### Spans do not matter -/

mutual

theorem Pattern.printable_eraseSpans : ∀ pattern : Pattern,
    pattern.eraseSpans.Printable ↔ pattern.Printable
  | .literal _ _ | .regex _ _ _ | .any _ | .name _ _ | .variable _ _ | .template _ _ _ => Iff.rfl
  | .apply _ pattern _ => and_congr_right' (pattern.printable_eraseSpans)
  | .group items _ => by
    rw [Pattern.eraseSpans, Pattern.Printable, Pattern.Printable, allPrintable_eraseSpans items,
      eraseSpansOfItems_eq_map, Ne, List.map_eq_nil_iff]

theorem GroupItem.printable_eraseSpans : ∀ item : GroupItem,
    item.eraseSpans.Printable ↔ item.Printable
  | .mk _ pattern _ _ => pattern.printable_eraseSpans

theorem allPrintable_eraseSpans : ∀ items : List GroupItem,
    AllPrintable (eraseSpansOfItems items) ↔ AllPrintable items
  | [] => Iff.rfl
  | item :: items => and_congr item.printable_eraseSpans (allPrintable_eraseSpans items)

end

theorem Alternative.Printable.of_eraseSpans {alternative : Alternative}
    (h : alternative.eraseSpans.Printable) : alternative.Printable := by
  obtain ⟨hnonempty, hitems, hmapper⟩ := h
  refine ⟨fun hnil => ?_, fun item hitem => ?_, fun mapper hmem => ?_⟩
  · rw [Alternative.eraseSpans, hnil] at hnonempty
    exact hnonempty rfl
  · have hitem := hitems item.eraseSpans (List.mem_map_of_mem hitem)
    exact item.pattern.printable_eraseSpans.1 hitem
  · refine hmapper mapper.eraseSpans ?_
    rw [Alternative.eraseSpans, Option.mem_def.1 hmem]
    rfl

theorem Rule.Printable.of_eraseSpans {rule : Rule} (h : rule.eraseSpans.Printable) :
    rule.Printable := by
  obtain ⟨hhead, htype, hnonempty, halternatives⟩ := h
  refine ⟨hhead, htype, fun hnil => ?_, fun alternative halternative => ?_⟩
  · rw [Rule.eraseSpans, hnil] at hnonempty
    exact hnonempty rfl
  · exact .of_eraseSpans (halternatives alternative.eraseSpans (List.mem_map_of_mem halternative))

/-- Whether a grammar can be written does not depend on its spans. -/
theorem Grammar.Printable.of_eraseSpans {grammar : Grammar} (h : grammar.eraseSpans.Printable) :
    grammar.Printable := by
  obtain ⟨hpastas, hrules⟩ := h
  refine ⟨fun pasta hpasta => ?_, fun rule hrule => ?_⟩
  · exact hpastas pasta.eraseSpans (List.mem_map_of_mem hpasta)
  · exact .of_eraseSpans (hrules rule.eraseSpans (List.mem_map_of_mem hrule))

end Peg
