/-
Peg/Proofs/Grammar/Check.lean

Checking whether a grammar can be written.

`Grammar.Printable` is decidable.  Most of its conditions are finite checks as
they stand.  Whether a text is one that normalizing gives is found out by
normalizing it once more, which must not change it.
-/
import Peg.Proofs.Grammar.MapperText

namespace Peg

open Text

/-! ### Texts -/

/-- The check for identifiers. -/
def isIdentifier : List Char → Bool
  | [] => false
  | c :: cs => (c.isAlpha || c == '_') && cs.all fun c => c.isAlphanum || c == '_'

theorem isIdentifier_eq_true_iff (name : String) :
    isIdentifier name.toList = true ↔ IsIdentifier name := by
  rw [IsIdentifier]
  rcases name.toList with - | ⟨c, cs⟩
  · exact ⟨nofun, fun ⟨_, _, h, _⟩ => nomatch h⟩
  · rw [isIdentifier, Bool.and_eq_true, List.all_eq_true]
    constructor
    · rintro ⟨hc, hcs⟩
      exact ⟨c, cs, rfl, hc, hcs⟩
    · rintro ⟨c', cs', hname, hc, hcs⟩
      obtain ⟨rfl, rfl⟩ := List.cons.inj hname
      exact ⟨hc, hcs⟩

instance (name : String) : Decidable (IsIdentifier name) :=
  decidable_of_iff _ (isIdentifier_eq_true_iff name)

/-- The check for sources of regular expressions. -/
def isRegexSource : List Char → Bool
  | [] => true
  | '\\' :: c :: cs => c != '/' && c != '\n' && isRegexSource cs
  | c :: cs => c != '\\' && c != '\n' && isRegexSource cs

theorem isRegexSource_iff (cs : List Char) : isRegexSource cs = true ↔ RegexSource cs := by
  fun_induction isRegexSource cs with
  | case1 => exact ⟨fun _ => .nil, fun _ => rfl⟩
  | case2 c cs ih =>
    rw [Bool.and_eq_true, Bool.and_eq_true, bne_iff_ne, bne_iff_ne, ih]
    constructor
    · rintro ⟨⟨hslash, hline⟩, h⟩
      exact .pair hslash hline h
    · intro h
      cases h with
      | plain hbackslash => exact absurd rfl hbackslash
      | pair hslash hline h => exact ⟨⟨hslash, hline⟩, h⟩
  | case3 c cs hother ih =>
    rw [Bool.and_eq_true, Bool.and_eq_true, bne_iff_ne, bne_iff_ne, ih]
    constructor
    · rintro ⟨⟨hbackslash, hline⟩, h⟩
      exact .plain hbackslash hline h
    · intro h
      cases h with
      | plain hbackslash hline h => exact ⟨⟨hbackslash, hline⟩, h⟩
      | pair hslash hline h => exact absurd rfl (hother _ _ rfl)

instance (cs : List Char) : Decidable (RegexSource cs) :=
  decidable_of_iff _ (isRegexSource_iff cs)

instance (flags : List Char) : Decidable (RegexFlags flags) :=
  decidable_of_iff (flags.all fun c => c == 'i' || c == 's') (by simp [RegexFlags])

instance (type : List Char) : Decidable (IsTypeText type) :=
  decidable_of_iff (type ≠ [] ∧ trim type = type ∧ (type.all fun c => c != '=' && c != ';') ∧
    ¬ ['-', '-'] <+: type) <| by
    rw [List.all_eq_true]
    simp only [Bool.and_eq_true, bne_iff_ne]
    exact ⟨fun ⟨hne, htrim, hends, hdashes⟩ => ⟨hne, htrim, hends, hdashes⟩,
      fun ⟨hne, htrim, hends, hdashes⟩ => ⟨hne, htrim, hends, hdashes⟩⟩

namespace Token

/-- Normalized texts are left as they are. -/
theorem normalizeMapper_normalizeMapper (code : String) :
    normalizeMapper (normalizeMapper code) = normalizeMapper code := by
  have hlines : ∀ line ∈ mapperLines code.toList, IsLine line := fun line hline =>
    isLine_of_mem hline
  rw [normalizeMapper_eq, normalizeMapper_eq, String.toList_ofList]
  generalize mapperLines code.toList = lines at hlines
  rcases lines with - | ⟨first, others⟩
  · rfl
  · obtain ⟨hfirst, hothers⟩ := List.forall_mem_cons.1 hlines
    have htrim : others.map trim = others := by
      refine (List.map_congr_left fun line hline => ?_).trans (List.map_id others)
      exact trim_of_isTrimmed (hothers line hline).trimmed
    have hjoin : joinWith ['\n'] (first :: others) = first ++ others.flatMap ('\n' :: ·) :=
      joinWith_cons ['\n'] first others
    rw [hjoin, mapperLines_flatMap hfirst.noFeed (fun line hline => (hothers line hline).noFeed)
      hlines (trim_of_isTrimmed hfirst.trimmed) htrim, hjoin]

end Token

instance (code : String) : Decidable (IsMapperText code) :=
  decidable_of_iff (code ≠ "" ∧ Token.normalizeMapper code = code ∧
    (splitOn '\n' code.toList).tail.all fun line =>
      line.head?.all fun c => c != '|' && c != ';' && c != '-') <| by
    simp only [List.all_eq_true, Option.all_eq_true, Bool.and_eq_true, bne_iff_ne, and_assoc]
    constructor
    · rintro ⟨hne, hnormalized, hlines⟩
      exact ⟨hne, ⟨code, hnormalized⟩, hlines⟩
    · rintro ⟨hne, ⟨raw, rfl⟩, hlines⟩
      exact ⟨hne, Token.normalizeMapper_normalizeMapper raw, hlines⟩

/-! ### Grammars -/

mutual

instance Pattern.decidablePrintable : ∀ pattern : Pattern, Decidable pattern.Printable
  | .literal _ _ | .any _ => .isTrue trivial
  | .regex source flags _ =>
    inferInstanceAs (Decidable (RegexSource source.toList ∧ RegexFlags flags.toList))
  | .name name _ => inferInstanceAs (Decidable (IsIdentifier name))
  | .variable index _ => inferInstanceAs (Decidable (index < UInt64.size))
  | .template function body _ =>
    inferInstanceAs (Decidable ((∀ name ∈ function, IsIdentifier name) ∧ '`' ∉ body.toList))
  | .apply function pattern _ =>
    have := pattern.decidablePrintable
    inferInstanceAs (Decidable (IsIdentifier function ∧ pattern.Printable))
  | .group items _ =>
    have := decidableAllPrintable items
    inferInstanceAs (Decidable (items ≠ [] ∧ AllPrintable items))

instance GroupItem.decidablePrintable : ∀ item : GroupItem, Decidable item.Printable
  | .mk _ pattern _ _ => pattern.decidablePrintable

instance decidableAllPrintable : ∀ items : List GroupItem, Decidable (AllPrintable items)
  | [] => .isTrue trivial
  | item :: items =>
    have := item.decidablePrintable
    have := decidableAllPrintable items
    inferInstanceAs (Decidable (item.Printable ∧ AllPrintable items))

end

instance (item : Item) : Decidable item.Printable :=
  inferInstanceAs (Decidable item.pattern.Printable)

instance (alternative : Alternative) : Decidable alternative.Printable :=
  decidable_of_iff (alternative.items ≠ [] ∧ (∀ item ∈ alternative.items, item.Printable) ∧
    ∀ mapper ∈ alternative.mapper, IsMapperText mapper.code)
    ⟨fun ⟨hne, hitems, hmapper⟩ => ⟨hne, hitems, hmapper⟩,
      fun ⟨hne, hitems, hmapper⟩ => ⟨hne, hitems, hmapper⟩⟩

instance : ∀ head : RuleHead, Decidable head.Printable
  | .simple name => inferInstanceAs (Decidable (IsIdentifier name))
  | .template function param =>
    inferInstanceAs (Decidable ((∀ name ∈ function, IsIdentifier name) ∧ IsIdentifier param))

instance (rule : Rule) : Decidable rule.Printable :=
  decidable_of_iff (rule.head.Printable ∧ (∀ type ∈ rule.type, IsTypeText type.toList) ∧
    rule.alternatives ≠ [] ∧ ∀ alternative ∈ rule.alternatives, alternative.Printable)
    ⟨fun ⟨hhead, htype, hne, halternatives⟩ => ⟨hhead, htype, hne, halternatives⟩,
      fun ⟨hhead, htype, hne, halternatives⟩ => ⟨hhead, htype, hne, halternatives⟩⟩

instance (pasta : Pasta) : Decidable pasta.Printable :=
  inferInstanceAs (Decidable (¬ "\x7d%".toList <:+: pasta.code.toList))

instance (grammar : Grammar) : Decidable grammar.Printable :=
  decidable_of_iff ((∀ pasta ∈ grammar.pastas, pasta.Printable) ∧
    ∀ rule ∈ grammar.rules, rule.Printable)
    ⟨fun ⟨hpastas, hrules⟩ => ⟨hpastas, hrules⟩, fun ⟨hpastas, hrules⟩ => ⟨hpastas, hrules⟩⟩

end Peg
