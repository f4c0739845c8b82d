/-
Peg/Proofs/Grammar/Typed.lean

The trees of the grammar of grammars are trees of grammars.

A tree may come from anywhere, so reading it checks every node for its kind
and its children.  The trees that the grammar of grammars gives pass all of
these checks: each of its rules has values of one type, a text, a list of
trees or a tree that some function reads (`typeOf`).  One thing is left that
the type does not say.  A variable is any number of digits, and its index has
to fit a machine word.

So there are just two cases, which `Decodes` tells apart: reading succeeds, or
it fails and the tree has such a variable.
-/
import Peg.Proofs.Grammar.Meanings
import Peg.Proofs.Grammar.ReadGrammar
import Peg.Proofs.Grammar.Terminates
import Peg.Proofs.Program.Resolve

namespace Peg

open Text Regex

/-! ### Variables out of range -/

/-- A variable token with an index that does not fit a machine word. -/
def Token.Overflows (token : String) : Prop :=
  ∃ digits, token.toList = '$' :: digits ∧ digits ≠ [] ∧ (∀ c ∈ digits, c.isDigit = true) ∧
    UInt64.size ≤ Nat.ofDigitChars 10 digits 0

instance (token : String) : Decidable (Token.Overflows token) :=
  -- all digits as a Boolean, so that nobody goes through all characters there are
  decidable_of_iff (token.toList.head? = some '$' ∧ token.toList.tail ≠ [] ∧
    token.toList.tail.all Char.isDigit = true ∧
      UInt64.size ≤ Nat.ofDigitChars 10 token.toList.tail 0) <| by
    rw [Token.Overflows, List.all_eq_true]
    rcases token.toList with - | ⟨c, digits⟩
    · exact ⟨fun ⟨h, _⟩ => (nomatch h), fun ⟨_, h, _⟩ => (nomatch h)⟩
    · constructor
      · rintro ⟨hc, h⟩
        obtain rfl : c = '$' := Option.some.inj hc
        exact ⟨digits, rfl, h⟩
      · rintro ⟨digits', htoken, h⟩
        obtain ⟨rfl, rfl⟩ := List.cons.inj htoken
        exact ⟨rfl, h⟩

/-- A variable is decoded unless its index does not fit. -/
theorem Token.decodeVariable?_eq {digits : List Char} (hne : digits ≠ [])
    (hdigits : ∀ c ∈ digits, c.isDigit = true) :
    decodeVariable? (String.ofList ('$' :: digits)) =
      if UInt64.size ≤ Nat.ofDigitChars 10 digits 0 then none
      else some (Nat.ofDigitChars 10 digits 0) := by
  have hparse : decodeVariable? (String.ofList ('$' :: digits)) = parseIndex? digits := by
    rw [decodeVariable?, String.toList_ofList]
    split
    · rename_i others heq
      -- a digit is not a sign
      obtain ⟨-, rfl⟩ := List.cons.inj heq
      exact absurd (hdigits '+' (List.mem_cons_self ..)) (by decide)
    · rename_i others _ heq
      rw [(List.cons.inj heq).2]
    · rename_i hother
      exact absurd rfl (hother digits)
  rw [hparse, parseIndex?, numberOf?_digits hne hdigits, Option.filter_some]
  by_cases hlt : Nat.ofDigitChars 10 digits 0 < UInt64.size
  · rw [if_pos (decide_eq_true hlt), if_neg (Nat.not_le.2 hlt)]
  · rw [if_neg (by simpa using hlt), if_pos (Nat.not_lt.1 hlt)]

namespace Value

/-- The children of a node are one token that overflows. -/
def HoldOverflow : List Value → Prop
  | [.str token] => Token.Overflows token
  | _ => False

mutual

/-- A tree contains a variable whose index does not fit a machine word. -/
def Oversized : Value → Prop
  | .absent | .str _ | .int _ => False
  | .list items => AnyOversized items
  | .tuple items => AnyOversized items
  | .node kind _ children =>
    (kind = "variable" ∧ HoldOverflow children) ∨ AnyOversized children

/-- One of several trees does. -/
def AnyOversized : List Value → Prop
  | [] => False
  | value :: values => value.Oversized ∨ AnyOversized values

end

instance : ∀ children : List Value, Decidable (HoldOverflow children)
  | [.str token] => inferInstanceAs (Decidable (Token.Overflows token))
  | [] | [.absent] | [.int _] | [.list _] | [.tuple _] | [.node _ _ _] => .isFalse id
  | child :: _ :: _ => .isFalse (by cases child <;> exact id)

mutual

instance decidableOversized : ∀ value : Value, Decidable value.Oversized
  | .absent | .str _ | .int _ => .isFalse id
  | .list items => decidableAnyOversized items
  | .tuple items => decidableAnyOversized items
  | .node kind _ children =>
    have := decidableAnyOversized children
    inferInstanceAs (Decidable ((kind = "variable" ∧ HoldOverflow children) ∨
      AnyOversized children))

instance decidableAnyOversized : ∀ values : List Value, Decidable (AnyOversized values)
  | [] => .isFalse id
  | value :: values =>
    have := decidableOversized value
    have := decidableAnyOversized values
    inferInstanceAs (Decidable (value.Oversized ∨ AnyOversized values))

end

theorem anyOversized_iff {values : List Value} :
    AnyOversized values ↔ ∃ value ∈ values, value.Oversized := by
  induction values with
  | nil => simp [AnyOversized]
  | cons value values ih => rw [AnyOversized, ih, List.exists_mem_cons_iff]

/-- A node of any other kind is too large where one of its children is. -/
theorem oversized_node {kind : String} (hkind : kind ≠ "variable") (span : Span)
    (children : List Value) :
    (node kind span children).Oversized ↔ ∃ child ∈ children, child.Oversized := by
  rw [Oversized, anyOversized_iff]
  exact ⟨fun h => h.resolve_left fun h => hkind h.1, .inr⟩

/-- A list is too large where one of its elements is. -/
theorem oversized_list (items : List Value) :
    (list items).Oversized ↔ ∃ item ∈ items, item.Oversized := by
  rw [Oversized, anyOversized_iff]

/-- Texts and their absence are no variables. -/
theorem not_oversized_ofText (text : Option String) : ¬ (ofText text).Oversized := by
  cases text <;> exact id

mutual

/-- Spans play no part in it. -/
theorem oversized_eraseSpans : ∀ value : Value, value.eraseSpans.Oversized ↔ value.Oversized
  | .absent | .str _ | .int _ => Iff.rfl
  | .list items => anyOversized_eraseSpans items
  | .tuple items => anyOversized_eraseSpans items
  | .node kind span children => by
    have htoken : HoldOverflow (eraseSpansOfAll children) ↔ HoldOverflow children := by
      rcases children with - | ⟨child, - | ⟨next, others⟩⟩
      · rfl
      · cases child <;> rfl
      · cases child <;> rfl
    rw [eraseSpans, Oversized, Oversized, anyOversized_eraseSpans children, htoken]

/-- Spans have nothing to do with it. -/
theorem anyOversized_eraseSpans : ∀ values : List Value,
    AnyOversized (eraseSpansOfAll values) ↔ AnyOversized values
  | [] => Iff.rfl
  | value :: values => by
    rw [eraseSpansOfAll, AnyOversized, AnyOversized, oversized_eraseSpans value,
      anyOversized_eraseSpans values]

end

end Value

/-! ### Two cases -/

namespace Tree

variable {α β : Type} {read : Except CompileError α} {oversized oversized' : Prop}

/-- Reading a part of a tree fails exactly if there is a variable out of range in it. -/
def Decodes (read : Except CompileError α) (oversized : Prop) : Prop :=
  (∃ result, read = .ok result) ∧ ¬ oversized ∨ (∃ part, read = malformed part) ∧ oversized

namespace Decodes

/-- A result with no index that is too large. -/
theorem ok (result : α) (h : ¬ oversized) : Decodes (.ok result) oversized :=
  .inl ⟨⟨result, rfl⟩, h⟩

/-- A tree of texts, none of which is a variable. -/
theorem leaf {result : α} {kind : String} {span : Span} {children : List Value}
    (hread : read = .ok result) (hkind : kind ≠ "variable")
    (h : ∀ child ∈ children, ¬ child.Oversized) :
    Decodes read (Value.node kind span children).Oversized := by
  rw [hread]
  refine .ok result fun hoversized => ?_
  obtain ⟨child, hchild, hoversized⟩ := (Value.oversized_node hkind span children).1 hoversized
  exact h child hchild hoversized

/-- Another way to say when there is such an index. -/
theorem congr (h : Decodes read oversized) (hiff : oversized' ↔ oversized) :
    Decodes read oversized' := by
  rwa [propext hiff]

/-- A change of the result does not matter. -/
theorem map (h : Decodes read oversized) (f : α → β) : Decodes (read.map f) oversized := by
  rcases h with ⟨⟨result, rfl⟩, hfits⟩ | ⟨⟨part, rfl⟩, hoversized⟩
  · exact .inl ⟨⟨f result, rfl⟩, hfits⟩
  · exact .inr ⟨⟨part, rfl⟩, hoversized⟩

theorem of_map {f : α → β} (h : Decodes (read.map f) oversized) : Decodes read oversized := by
  rcases h with ⟨⟨result, hread⟩, hfits⟩ | ⟨⟨part, hread⟩, hoversized⟩
  · obtain ⟨result, hread, -⟩ := map_eq_ok_iff.1 hread
    exact .inl ⟨⟨result, hread⟩, hfits⟩
  · refine .inr ⟨⟨part, ?_⟩, hoversized⟩
    rcases read with error | result
    · exact congrArg Except.error (Except.error.inj hread)
    · cases hread

/-- What is read next only matters if there is something to go on with. -/
theorem bind {next : α → Except CompileError β} (h : Decodes read oversized)
    (hnext : ∀ result, Decodes (next result) oversized') :
    Decodes (read >>= next) (oversized ∨ oversized') := by
  rcases h with ⟨⟨result, rfl⟩, hfits⟩ | ⟨⟨part, rfl⟩, hoversized⟩
  · exact (hnext result).congr (or_iff_right hfits)
  · exact .inr ⟨⟨part, rfl⟩, .inl hoversized⟩

/-- Trees that decode one by one decode together. -/
theorem mapM {f : Value → Except CompileError α} {trees : List Value}
    (h : ∀ tree ∈ trees, Decodes (f tree) tree.Oversized) :
    Decodes (trees.mapM f) (∃ tree ∈ trees, tree.Oversized) := by
  induction trees with
  | nil => exact .ok [] nofun
  | cons tree trees ih =>
    obtain ⟨htree, htrees⟩ := List.forall_mem_cons.1 h
    rw [List.mapM_cons, List.exists_mem_cons_iff]
    exact htree.bind fun result => (ih htrees).map (result :: ·)

/-- So do trees that are added to a grammar one by one. -/
theorem foldlM {f : α → Value → Except CompileError α} {trees : List Value}
    (h : ∀ tree ∈ trees, ∀ result, Decodes (f result tree) tree.Oversized) (result : α) :
    Decodes (trees.foldlM f result) (∃ tree ∈ trees, tree.Oversized) := by
  induction trees generalizing result with
  | nil => exact .ok result nofun
  | cons tree trees ih =>
    obtain ⟨htree, htrees⟩ := List.forall_mem_cons.1 h
    rw [List.foldlM_cons, List.exists_mem_cons_iff]
    exact (htree result).bind (ih htrees)

end Decodes

end Tree

open Peg.Tree

/-! ### Types of rules -/

namespace Meta

/-- The type of the values of a rule. -/
def typeOf : Name → Value → Prop
  | .grammar => fun tree => Decodes (Grammar.ofTree tree) tree.Oversized
  | .item | .pasta | .rule => fun tree => ∀ grammar, Decodes (addTo grammar tree) tree.Oversized
  | .pastaText | .typeAnn | .mapperText | .id => fun value => ∃ text, value = .str text
  | .tplHead | .applyHead | .ws => fun _ => True
  | .alternatives => fun value => ∃ trees, value = .list trees ∧
    ∀ tree ∈ trees, Decodes (alternative tree) tree.Oversized
  | .altTail | .alternative => fun tree => Decodes (alternative tree) tree.Oversized
  | .mapper => fun tree => Decodes (mapper tree) tree.Oversized
  | .rep => fun tree => ∀ important, Decodes (repeatable important tree) tree.Oversized
  | .modifier => fun value => ∃ repetition : Repetition, value = .str repetition.symbol.toString
  | .groupItem => fun tree => Decodes (groupItem tree) tree.Oversized
  | .simple | .literal | .regex | .any | .variable | .group | .template | .apply =>
    fun tree => Decodes (pattern tree) tree.Oversized

/-- The alternatives of a rule give values of its type. -/
abbrev Typed (name : Name) : Prop :=
  HasMeaning (fun name _ _ value => typeOf name value) name

/-- Types as meanings. -/
abbrev types : Nat → Meaning :=
  byNumber fun name _ _ value => typeOf name value

variable {name : Name} {word rest : List Char} {value : Value}

/-- What a rule of the grammar gives has the type of the rule. -/
theorem type_of_call (h : (call name).Yields types word rest value) : typeOf name value :=
  yields_call h

/-- So has each value of a repetition. -/
theorem forall_type_of_many {values : List Value}
    (h : Meaning.Many ((call name).Yields types) word rest values) :
    ∀ value ∈ values, typeOf name value := by
  intro value hvalue
  obtain ⟨_, _, htype⟩ := forall_of_many h value hvalue
  exact htype

/-- A rule of one token gives a text. -/
theorem text_of_token (token : Token) (h : token.matcher.Yields types word rest value) :
    ∃ text, value = .str text :=
  ⟨_, (accepts_of_yields token h).1⟩

/-- A text that may be absent. -/
theorem optional_text (htype : typeOf name = fun value => ∃ text, value = .str text)
    (h : (optional (call name)).Yields types word rest value) :
    ∃ text : Option String, value = .ofText text := by
  rcases h with h | ⟨-, rfl⟩
  · have hvalue := type_of_call h
    rw [htype] at hvalue
    obtain ⟨text, rfl⟩ := hvalue
    exact ⟨some text, rfl⟩
  · exact ⟨none, rfl⟩

/-! ### Tokens -/

theorem typed_id : Typed .id := by
  refine .only rfl fun word rest values h => ?_
  obtain ⟨_, rfl, htoken⟩ := h.single
  exact text_of_token .id htoken

/-- The text of a mapper is a text, whatever is in it. -/
theorem typed_mapperText : Typed .mapperText := by
  refine .only rfl fun word rest values h => ?_
  obtain ⟨_, rfl, htoken⟩ := h.single
  exact text_of_token .mapper htoken

/-- A declared type is the text between the colon and the equals sign. -/
theorem typed_typeAnn : Typed .typeAnn := by
  refine .only rfl fun word rest values h => ?_
  obtain ⟨_, _, type, htype, htoken⟩ := h.get 2 rfl
  obtain ⟨text, rfl⟩ := text_of_token .type htoken
  show ∃ text, (values[2]?).getD .absent = .str text
  rw [htype]
  exact ⟨text, rfl⟩

theorem typed_pastaText : Typed .pastaText :=
  .only rfl fun _ _ _ _ => ⟨_, rfl⟩

theorem typed_modifier : Typed .modifier := by
  refine .only rfl fun word rest values h => ?_
  obtain ⟨_, rfl, htoken⟩ := h.single
  obtain ⟨rfl, haccepts⟩ := accepts_of_yields .modifier htoken
  obtain ⟨c, hc, rfl⟩ := accepts_chars_iff.1 haccepts
  simp only [modifierSet, CharSet.contains_union, CharSet.contains_single, Bool.or_eq_true,
    beq_iff_eq] at hc
  rcases hc with (rfl | rfl) | rfl
  · exact ⟨.optional, rfl⟩
  · exact ⟨.any, rfl⟩
  · exact ⟨.oneOrMore, rfl⟩

/-! ### Patterns -/

/-- A literal is a node of one text, which decodes to a pattern. -/
theorem typed_literal : Typed .literal := by
  refine .only rfl fun word rest values h => ?_
  obtain ⟨_, rfl, htoken⟩ := h.single
  obtain ⟨text, rfl⟩ := text_of_token .literal htoken
  exact .leaf (pattern_literal {} text) (by decide) (List.forall_mem_singleton.2 id)

theorem typed_regex : Typed .regex := by
  refine .only rfl fun word rest values h => ?_
  obtain ⟨_, rfl, htoken⟩ := h.single
  obtain ⟨text, rfl⟩ := text_of_token .regex htoken
  exact .leaf (pattern_regex {} text) (by decide) (List.forall_mem_singleton.2 id)

theorem typed_any : Typed .any :=
  .only rfl fun _ _ _ _ => .leaf (pattern_any {}) (by decide) nofun

/-- The one place where a tree may not be one of a grammar. -/
theorem typed_variable : Typed .variable := by
  refine .only rfl fun word rest values h => ?_
  obtain ⟨_, rfl, htoken⟩ := h.single
  obtain ⟨rfl, haccepts⟩ := accepts_of_yields .variable htoken
  obtain ⟨dollar, digits, rfl, hdollar, hdigits⟩ := accepts_seq_iff.1 haccepts
  obtain ⟨c, hc, rfl⟩ := accepts_chars_iff.1 hdollar
  rw [CharSet.contains_single, beq_iff_eq] at hc
  subst hc
  obtain ⟨hcovers, hne⟩ := hdigits.covers_plus
  have hread := pattern_variable {} (String.ofList ('$' :: digits))
  rw [Token.decodeVariable?_eq hne hcovers] at hread
  show Decodes (pattern (.node "variable" {} [.str (String.ofList ('$' :: digits))]))
    (Value.node "variable" {} [.str (String.ofList ('$' :: digits))]).Oversized
  rw [hread]
  by_cases hle : UInt64.size ≤ Nat.ofDigitChars 10 digits 0
  · rw [if_pos hle]
    have hoverflows : Token.Overflows (String.ofList ('$' :: digits)) :=
      ⟨digits, String.toList_ofList, hne, hcovers, hle⟩
    exact .inr ⟨⟨_, rfl⟩, .inl ⟨rfl, hoverflows⟩⟩
  · rw [if_neg hle]
    refine .ok _ ?_
    rintro (⟨-, digits', htext, -, -, hle'⟩ | hchildren)
    · rw [String.toList_ofList] at htext
      obtain ⟨-, rfl⟩ := List.cons.inj htext
      exact hle hle'
    · obtain ⟨child, hchild, hoversized⟩ := Value.anyOversized_iff.1 hchildren
      rw [List.mem_singleton.1 hchild] at hoversized
      exact hoversized

/-- A template has a name or none, and a text as its argument. -/
theorem typed_template : Typed .template := by
  refine .node rfl fun word rest values h => ?_
  obtain ⟨_, _, name, hname, hoptional⟩ := h.get 0 rfl
  obtain ⟨_, _, body, hbody, htoken⟩ := h.get 2 rfl
  obtain ⟨function, rfl⟩ := optional_text rfl hoptional
  obtain ⟨text, rfl⟩ := text_of_token .template htoken
  simp only [List.map_cons, List.map_nil, hname, hbody, Option.getD_some]
  refine .leaf (pattern_template {} function text) (by decide) ?_
  exact List.forall_mem_cons.2
    ⟨Value.not_oversized_ofText function, List.forall_mem_singleton.2 id⟩

/-- An application has a name and the tree of a pattern, so it is as large as the pattern is. -/
theorem typed_apply : Typed .apply := by
  refine .node rfl fun word rest values h => ?_
  obtain ⟨_, _, name, hname, hcall⟩ := h.get 0 rfl
  obtain ⟨_, _, tree, htree, hsimple⟩ := h.get 3 rfl
  obtain ⟨name, rfl⟩ := type_of_call hcall
  have hinner : Decodes (pattern tree) tree.Oversized := type_of_call hsimple
  simp only [List.map_cons, List.map_nil, hname, htree, Option.getD_some]
  refine (hinner.map (Pattern.apply name · {})).congr ?_
  rw [Value.oversized_node (by decide)]
  simp [Value.Oversized]

/-- A group has a list of items, and is too large where one of them is. -/
theorem typed_group : Typed .group := by
  refine .node rfl fun word rest values h => ?_
  obtain ⟨_, _, list, hlist, trees, rfl, -, hmany⟩ := h.get 2 rfl
  have hitems : Decodes (groupItems trees) (∃ tree ∈ trees, tree.Oversized) := by
    rw [groupItems_eq_mapM]
    exact .mapM (forall_type_of_many hmany)
  simp only [List.map_cons, List.map_nil, hlist, Option.getD_some]
  refine (hitems.map (Pattern.group · {})).congr ?_
  rw [Value.oversized_node (by decide)]
  simp [Value.oversized_list]

/-- The patterns that are told by their first character have the type of patterns. -/
theorem typeOf_opening {opening : Name × Char} (h : opening ∈ openings) :
    typeOf opening.1 = typeOf .simple := by
  simp only [openings, List.mem_cons, List.not_mem_nil, or_false] at h
  rcases h with rfl | rfl | rfl | rfl | rfl <;> rfl

/-- Each kind of simple pattern is one of these. -/
theorem typed_simple : Typed .simple := by
  intro alternative halternative word rest values h
  rw [alternativesOf_simple] at halternative
  rcases List.mem_append.1 halternative with htold | hlook
  · obtain ⟨opening, hopening, rfl⟩ := List.mem_map.1 htold
    obtain ⟨_, rfl, hcall⟩ := h.single
    have htype := type_of_call hcall
    rw [typeOf_opening hopening] at htype
    exact htype
  · simp only [List.mem_cons, List.not_mem_nil, or_false] at hlook
    rcases hlook with rfl | rfl | rfl
    · obtain ⟨_, _, tree, htree, hcall⟩ := h.get 1 rfl
      have htemplate : typeOf .template tree := type_of_call hcall
      show typeOf .simple ((values[1]?).getD .absent)
      rw [htree]
      exact htemplate
    · obtain ⟨_, _, tree, htree, hcall⟩ := h.get 1 rfl
      have happly : typeOf .apply tree := type_of_call hcall
      show typeOf .simple ((values[1]?).getD .absent)
      rw [htree]
      exact happly
    · obtain ⟨_, rfl, hcall⟩ := h.single
      obtain ⟨name, rfl⟩ := type_of_call hcall
      exact .leaf (pattern_id {} name) (by decide) (List.forall_mem_singleton.2 id)

/-! ### Members of sequences and groups -/

/-- A pattern with a modifier has two children, of which only the first can be too large. -/
theorem typed_rep : Typed .rep := by
  refine .node rfl fun word rest values h => ?_
  obtain ⟨_, _, tree, htree, hsimple⟩ := h.get 0 rfl
  obtain ⟨_, _, modifier, hmodifier, hoptional⟩ := h.get 1 rfl
  have hpattern : Decodes (pattern tree) tree.Oversized := type_of_call hsimple
  have hrepetition : ∃ repetition? : Option Repetition,
      modifier = .ofText (Repetition.text repetition?) := by
    rcases hoptional with hcall | ⟨-, rfl⟩
    · obtain ⟨repetition, rfl⟩ := type_of_call hcall
      exact ⟨some repetition, rfl⟩
    · exact ⟨none, rfl⟩
  obtain ⟨repetition?, rfl⟩ := hrepetition
  simp only [List.map_cons, List.map_nil, htree, hmodifier, Option.getD_some]
  intro important
  rw [repeatable_node, optionalString_ofText]
  show Decodes (repetition (Repetition.text repetition?) >>= _) _
  rw [repetition_text]
  refine (hpattern.map fun p => GroupItem.mk important p repetition? {}).congr ?_
  rw [Value.oversized_node (by decide)]
  simp [Value.not_oversized_ofText]

/-- The mark of an item is absent or a text. -/
theorem typed_groupItem : Typed .groupItem := by
  refine .node rfl fun word rest values h => ?_
  obtain ⟨_, _, mark, hmark, hoptional⟩ := h.get 0 rfl
  obtain ⟨_, _, tree, htree, hrep⟩ := h.get 2 rfl
  have hmarkFits : ¬ mark.Oversized := by
    rcases hoptional with ⟨-, rfl⟩ | ⟨-, rfl⟩
    · exact id
    · exact id
  simp only [List.map_cons, List.map_nil, hmark, htree, Option.getD_some]
  refine (type_of_call hrep (!mark.isAbsent)).congr ?_
  rw [Value.oversized_node (by decide)]
  simp [hmarkFits]

/-! ### Alternatives -/

/-- A mapper is a node of one text. -/
theorem typed_mapper : Typed .mapper := by
  refine .node rfl fun word rest values h => ?_
  obtain ⟨_, _, text, htext, hcall⟩ := h.get 1 rfl
  obtain ⟨text, rfl⟩ := type_of_call hcall
  simp only [List.map_cons, List.map_nil, htext, Option.getD_some]
  exact .leaf (mapper_node {} text) (by decide) (List.forall_mem_singleton.2 id)

/-- An alternative has a list of items and perhaps a mapper. -/
theorem typed_alternative : Typed .alternative := by
  refine .node rfl fun word rest values h => ?_
  obtain ⟨_, _, list, hlist, trees, rfl, -, hmany⟩ := h.get 0 rfl
  obtain ⟨_, _, code, hcode, hoptional⟩ := h.get 1 rfl
  have hitems : Decodes (trees.mapM item) (∃ tree ∈ trees, tree.Oversized) :=
    .mapM fun tree htree => (forall_type_of_many hmany tree htree false).map GroupItem.item
  have hmapper : Decodes (mapper code) code.Oversized := by
    rcases hoptional with hcall | ⟨-, rfl⟩
    · exact type_of_call hcall
    · exact .ok none id
  simp only [List.map_cons, List.map_nil, hlist, hcode, Option.getD_some]
  have hread : Decodes (alternative (.node "alternative" {} [.list trees, code]))
      ((∃ tree ∈ trees, tree.Oversized) ∨ code.Oversized) := by
    rw [alternative_node]
    exact hitems.bind fun items => hmapper.map fun mapper => (⟨items, mapper, {}⟩ : Alternative)
  refine hread.congr ?_
  rw [Value.oversized_node (by decide)]
  simp [Value.oversized_list]

/-- The bar before an alternative is dropped. -/
theorem typed_altTail : Typed .altTail := by
  refine .only rfl fun word rest values h => ?_
  obtain ⟨_, _, tree, htree, hcall⟩ := h.get 2 rfl
  show typeOf .alternative ((values[2]?).getD .absent)
  rw [htree]
  exact type_of_call hcall

/-- The first alternative and the further ones are one list. -/
theorem typed_alternatives : Typed .alternatives := by
  refine .only rfl fun word rest values h => ?_
  obtain ⟨_, _, _, _, rfl, rfl, hfirst, _, _, _, _, rfl, rfl, ⟨trees, rfl, hmany⟩, rfl, rfl⟩ := h
  exact ⟨_ :: trees, rfl, List.forall_mem_cons.2 ⟨type_of_call hfirst, forall_type_of_many hmany⟩⟩

/-! ### Rules -/

/-- What a rule is made of after its head. -/
theorem decodes_ruleOf (head : RuleHead) {type alternatives : Value}
    (htype : (optional (call .typeAnn)).Yields types word rest type) {word' rest' : List Char}
    (halternatives : (call .alternatives).Yields types word' rest' alternatives) :
    ¬ type.Oversized ∧ Decodes (ruleOf head type alternatives {}) alternatives.Oversized := by
  obtain ⟨declared, rfl⟩ := optional_text rfl htype
  obtain ⟨trees, rfl, htrees⟩ := type_of_call halternatives
  refine ⟨Value.not_oversized_ofText declared, ?_⟩
  have hdeclared : ∃ declared', declaredType (.ofText declared) = .ok declared' := by
    cases declared with
    | none => exact ⟨none, rfl⟩
    | some text => exact ⟨_, declaredType_str text⟩
  obtain ⟨declared', hdeclared⟩ := hdeclared
  rw [ruleOf_list, hdeclared]
  have hread := (Decodes.mapM htrees).map fun alternatives =>
    (⟨head, declared', alternatives, {}⟩ : Rule)
  exact hread.congr (Value.oversized_list trees)

/-- Rules and templates have their alternatives as the last child. -/
theorem typed_rule : Typed .rule := by
  intro alternative halternative word rest values h
  simp only [alternativesOf, List.mem_cons, List.not_mem_nil, or_false] at halternative
  rcases halternative with rfl | rfl
  · obtain ⟨_, _, name, hname, hoptional⟩ := h.get 1 rfl
    obtain ⟨_, _, param, hparam, hcall⟩ := h.get 3 rfl
    obtain ⟨_, _, type, htype, hdeclared⟩ := h.get 6 rfl
    obtain ⟨_, _, alternatives, halternatives, hbody⟩ := h.get 9 rfl
    obtain ⟨function, rfl⟩ := optional_text rfl hoptional
    obtain ⟨param, rfl⟩ := type_of_call hcall
    obtain ⟨hfits, hrule⟩ := decodes_ruleOf (.template function param) hdeclared hbody
    rw [shape_node]
    simp only [List.map_cons, List.map_nil, hname, hparam, htype, halternatives, Option.getD_some]
    intro grammar
    rw [addTo_templateRule]
    refine (hrule.map _).congr ?_
    rw [Value.oversized_node (by decide)]
    simp [Value.not_oversized_ofText, Value.Oversized, hfits]
  · obtain ⟨_, _, name, hname, hcall⟩ := h.get 0 rfl
    obtain ⟨_, _, type, htype, hdeclared⟩ := h.get 2 rfl
    obtain ⟨_, _, alternatives, halternatives, hbody⟩ := h.get 5 rfl
    obtain ⟨name, rfl⟩ := type_of_call hcall
    obtain ⟨hfits, hrule⟩ := decodes_ruleOf (.simple name) hdeclared hbody
    rw [shape_node]
    simp only [List.map_cons, List.map_nil, hname, htype, halternatives, Option.getD_some]
    intro grammar
    rw [addTo_rule]
    refine (hrule.map _).congr ?_
    rw [Value.oversized_node (by decide)]
    simp [Value.Oversized, hfits]

/-- A pasta block is a node of one text. -/
theorem typed_pasta : Typed .pasta := by
  refine .node rfl fun word rest values h => ?_
  obtain ⟨_, _, text, htext, hcall⟩ := h.get 1 rfl
  obtain ⟨code, rfl⟩ := type_of_call hcall
  simp only [List.map_cons, List.map_nil, htext, Option.getD_some]
  intro grammar
  exact .leaf (addTo_pasta {} grammar code) (by decide) (List.forall_mem_singleton.2 id)

theorem typed_item : Typed .item := by
  intro alternative halternative word rest values h
  simp only [alternativesOf, List.mem_cons, List.not_mem_nil, or_false] at halternative
  rcases halternative with rfl | rfl
  · obtain ⟨_, rfl, hcall⟩ := h.single
    have hpasta := type_of_call hcall
    exact hpasta
  · obtain ⟨_, rfl, hcall⟩ := h.single
    have hrule := type_of_call hcall
    exact hrule

/-- The tree of a grammar has a list of items as its only child. -/
theorem typed_grammar : Typed .grammar := by
  refine .node rfl fun word rest values h => ?_
  obtain ⟨_, _, list, hlist, trees, rfl, hmany⟩ := h.get 1 rfl
  simp only [List.map_cons, List.map_nil, hlist, Option.getD_some]
  refine (Decodes.foldlM (forall_type_of_many hmany) {}).congr ?_
  rw [Value.oversized_node (by decide)]
  simp [Value.oversized_list]

/-- Every rule of the grammar of grammars gives trees of its type. -/
theorem typed (name : Name) : Typed name := by
  cases name with
  | grammar => exact typed_grammar
  | item => exact typed_item
  | pasta => exact typed_pasta
  | pastaText => exact typed_pastaText
  | rule => exact typed_rule
  | tplHead | applyHead | ws => exact fun _ _ _ _ _ _ => trivial
  | typeAnn => exact typed_typeAnn
  | alternatives => exact typed_alternatives
  | altTail => exact typed_altTail
  | alternative => exact typed_alternative
  | mapper => exact typed_mapper
  | mapperText => exact typed_mapperText
  | rep => exact typed_rep
  | modifier => exact typed_modifier
  | simple => exact typed_simple
  | literal => exact typed_literal
  | regex => exact typed_regex
  | any => exact typed_any
  | «variable» => exact typed_variable
  | group => exact typed_group
  | groupItem => exact typed_groupItem
  | template => exact typed_template
  | apply => exact typed_apply
  | id => exact typed_id

/-- The tree of a grammar is read, unless there is a variable out of range in it. -/
theorem decodes_tree {source : List Char} {events : List Event} {tree : Value} {stop : Nat}
    (hrun : program.runRule Name.grammar.number source 0 = some (events, .success tree stop)) :
    Decodes (Grammar.ofTree tree) tree.Oversized := by
  obtain ⟨_, _, htype⟩ := meaning_of_run typed hrun
  have hread : Decodes (Grammar.ofTree tree.eraseSpans) tree.eraseSpans.Oversized := htype
  rw [Grammar.ofTree_eraseSpans] at hread
  exact hread.of_map.congr (Value.oversized_eraseSpans tree).symm

end Meta

/-! ### Reading grammars -/

namespace Grammar

/-- The tree that the grammar of grammars gives for the whole of a text. -/
def IsTreeOf (source : String) (tree : Value) : Prop :=
  ∃ program found, metaProgram = .ok program ∧
    program.execute source.toList none true = .ok found ∧ found.value = tree

/-- The tree of a text is what the grammar of grammars gives, when it reads all of the text. -/
theorem isTreeOf_iff {source : String} {tree : Value} : IsTreeOf source tree ↔
    ∃ events stop, Meta.program.runRule Meta.Name.grammar.number source.toList 0 =
      some (events, .success tree stop) ∧ ¬ stop < size source.toList := by
  constructor
  · rintro ⟨program, found, hprogram, hfound, rfl⟩
    obtain rfl := Except.ok.inj (metaProgram_eq.symm.trans hprogram)
    rw [Meta.execute_eq] at hfound
    generalize hrun : Meta.program.runRule _ _ _ = run at hfound
    rcases run with - | ⟨events, ⟨value, stop⟩ | failure | fault⟩
    · cases hfound
    · rw [Program.result, Bool.true_and] at hfound
      split at hfound
      · cases hfound
      · rename_i hstop
        cases hfound
        exact ⟨events, stop, rfl, fun hlt => hstop (decide_eq_true hlt)⟩
    · cases hfound
    · cases hfound
  · rintro ⟨events, stop, hrun, hstop⟩
    refine ⟨Meta.program, ⟨tree, stop⟩, metaProgram_eq, ?_, rfl⟩
    rw [Meta.execute_eq, hrun, Program.result, Bool.true_and, if_neg (by simpa using hstop)]

/-- A whole text is read as a grammar, unless there is a variable out of range in it. -/
theorem decodes_parse {source : String} {tree : Value} (h : IsTreeOf source tree) :
    parse source = ofTree tree ∧ Decodes (parse source) tree.Oversized := by
  obtain ⟨events, stop, hrun, hstop⟩ := isTreeOf_iff.1 h
  have hparse : parse source = ofTree tree := by
    rcases parse_eq source with ⟨_, _, _, hrun', hparse⟩ | ⟨_, _, hrun', -⟩
    · rw [hrun] at hrun'
      cases hrun'
      rw [hparse, ofMatch, if_neg hstop]
    · rw [hrun] at hrun'
      cases hrun'
  exact ⟨hparse, hparse ▸ Meta.decodes_tree hrun⟩

/-- Reading fails for the tree if and only if the whole of the text is matched and the tree has a
variable whose index does not fit a machine word.  Any other tree of a whole text is that of a
grammar. -/
theorem parse_malformed_iff (source : String) :
    ((∃ error part, parse source = .error error ∧ error.cause = .malformedTree part) ↔
      ∃ tree, IsTreeOf source tree ∧ tree.Oversized) ∧
    ∀ tree, IsTreeOf source tree → ¬ tree.Oversized →
      ∃ grammar, ofTree tree = .ok grammar ∧ parse source = .ok grammar := by
  constructor
  · constructor
    · rintro ⟨error, part, hparse, hcause⟩
      rcases parse_eq source with ⟨events, tree, stop, hrun, hread⟩ | ⟨events, failure, -, hread⟩
      · by_cases hstop : stop < size source.toList
        · -- text that is left over is another error
          rw [hread, ofMatch, if_pos hstop] at hparse
          rw [← Except.error.inj hparse] at hcause
          cases hcause
        · have htree : IsTreeOf source tree := isTreeOf_iff.2 ⟨events, stop, hrun, hstop⟩
          rcases (decodes_parse htree).2 with ⟨⟨grammar, hgrammar⟩, -⟩ | ⟨-, hoversized⟩
          · rw [hgrammar] at hparse
            cases hparse
          · exact ⟨tree, htree, hoversized⟩
      · rw [hread] at hparse
        rw [← Except.error.inj hparse] at hcause
        cases hcause
    · rintro ⟨tree, htree, hoversized⟩
      rcases (decodes_parse htree).2 with ⟨-, hfits⟩ | ⟨⟨part, hmalformed⟩, -⟩
      · exact absurd hoversized hfits
      · exact ⟨_, part, hmalformed, rfl⟩
  · intro tree htree hfits
    obtain ⟨hparse, hdecodes⟩ := decodes_parse htree
    rcases hdecodes with ⟨⟨grammar, hgrammar⟩, -⟩ | ⟨-, hoversized⟩
    · exact ⟨grammar, hparse ▸ hgrammar, hgrammar⟩
    · exact absurd hoversized hfits

end Grammar

namespace Indexed

/-- A character and the same character once more. -/
def pair : List Char :=
  ['p', '=', '.', '$', '0', ';']

/-- A variable just out of range. -/
def excess : List Char :=
  ['p', '=', '.', '$', '1', '8', '4', '4', '6', '7', '4', '4', '0', '7',
    '3', '7', '0', '9', '5', '5', '1', '6', '1', '6', ';']

/-- Whether the whole of a text is matched by a tree that is oversized or not, as is said. -/
def isMatched (text : List Char) (oversized : Bool) : Bool :=
  (Meta.program.execute text none true).toOption.any fun found =>
    decide found.value.Oversized == oversized

/-- A check that decides about the tree of a fixed text. -/
theorem exists_tree {text : List Char} {oversized : Bool} (h : isMatched text oversized = true) :
    ∃ tree, Grammar.IsTreeOf (String.ofList text) tree ∧ decide tree.Oversized = oversized := by
  obtain ⟨found, hfound, hoversized⟩ := (Option.any_eq_true _ _).1 h
  refine ⟨found.value, ⟨Meta.program, found, metaProgram_eq, ?_, rfl⟩, beq_iff_eq.1 hoversized⟩
  rw [String.toList_ofList]
  exact eq_ok_of_toOption hfound

/-- The first text is a grammar, and the second one is not for its variable alone. -/
theorem reads_within_range : (∃ grammar, Grammar.parse (String.ofList pair) = .ok grammar) ∧
    ∃ error part, Grammar.parse (String.ofList excess) = .error error ∧
      error.cause = .malformedTree part := by
  constructor
  · obtain ⟨tree, htree, hfits⟩ := exists_tree (by decide +kernel : isMatched pair false = true)
    obtain ⟨grammar, -, hparse⟩ :=
      (Grammar.parse_malformed_iff (String.ofList pair)).2 tree htree (of_decide_eq_false hfits)
    exact ⟨grammar, hparse⟩
  · obtain ⟨tree, htree, hoversized⟩ :=
      exists_tree (by decide +kernel : isMatched excess true = true)
    exact (Grammar.parse_malformed_iff (String.ofList excess)).1.2
      ⟨tree, htree, of_decide_eq_true hoversized⟩

end Indexed

end Peg
