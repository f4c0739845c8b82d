/-
Peg/Proofs/Grammar/SyntaxTree.lean

The syntax tree of a written grammar.

`Grammar.tree` is the tree, without spans, that reading a written grammar
gives.  It keeps the tokens as they are written, blanks included where a token
reads them.  For a grammar that can be written, the tree stands for the
grammar: every token decodes to what was encoded.
-/
import Peg.Proofs.Grammar.Escape
import Peg.Proofs.Grammar.MapperText
import Peg.Proofs.Grammar.Tree

namespace Peg

/-! ### Trees -/

/-- A text that may be absent. -/
def Value.ofText (text : Option String) : Value :=
  .ofOption (text.map .str)

/-- What is written after a pattern that is repeated. -/
def Repetition.text (repetition : Option Repetition) : Option String :=
  repetition.map fun repetition => repetition.symbol.toString

mutual

/-- The tree of a pattern. -/
def Pattern.tree : Pattern → Value
  | .literal string _ => .node "literal" {} [.str (Token.encodeLiteral string)]
  | .regex source flags _ => .node "regex" {} [.str (Token.encodeRegex source flags)]
  | .any _ => .node "any" {} []
  | .name name _ => .node "id" {} [.str name]
  | .variable index _ => .node "variable" {} [.str (Token.encodeVariable index)]
  | .template function body _ => .node "template" {} [.ofText function, .str body]
  | .apply function pattern _ => .node "apply" {} [.str function, pattern.tree]
  | .group items _ => .node "group" {} [.list (treesOfItems items)]

/-- The tree of a member of a group, without its mark. -/
def GroupItem.repTree : GroupItem → Value
  | .mk _ pattern repetition _ =>
    .node "rep" {} [pattern.tree, .ofText (Repetition.text repetition)]

/-- The trees of the members of a group. -/
def treesOfItems : List GroupItem → List Value
  | [] => []
  | item :: items =>
    .node "groupItem" {} [.ofText (if item.important then some "!" else none), item.repTree] ::
      treesOfItems items

end

def Item.tree (item : Item) : Value :=
  (GroupItem.ofItem false item).repTree

def MapperCode.tree (mapper : MapperCode) : Value :=
  .node "mapper" {} [.str (String.ofList (Token.mapperWord mapper.code))]

def Alternative.tree (alternative : Alternative) : Value :=
  .node "alternative" {} [.list (alternative.items.map Item.tree),
    .ofOption (alternative.mapper.map MapperCode.tree)]

/-- The declared type with the blank that is written after it. -/
def Rule.typeTree (rule : Rule) : Value :=
  .ofText (rule.type.map (· ++ " "))

def Rule.tree (rule : Rule) : Value :=
  let alternatives := Value.list (rule.alternatives.map Alternative.tree)
  match rule.head with
  | .simple name => .node "rule" {} [.str name, rule.typeTree, alternatives]
  | .template function param =>
    .node "templateRule" {} [.ofText function, .str param, rule.typeTree, alternatives]

def Pasta.tree (pasta : Pasta) : Value :=
  .node "pasta" {} [.str pasta.code]

/-- The tree of a grammar. -/
def Grammar.tree (grammar : Grammar) : Value :=
  .node "grammar" {}
    [.list (grammar.pastas.map Pasta.tree ++ grammar.rules.map Rule.tree)]

/-! ### Nodes of a grammar -/

namespace Tree

open Text

/-- A text that may be absent is read back from its tree. -/
theorem optionalString_ofText (expected : String) (text : Option String) :
    optionalString expected (.ofText text) = .ok text := by
  cases text <;> rfl

/-- A modifier is read back from its symbol. -/
theorem repetition_text (repetition? : Option Repetition) :
    repetition (Repetition.text repetition?) = .ok repetition? := by
  rcases repetition? with - | - | - | - <;> rfl

section Nodes

variable (span : Span)

theorem pattern_literal (token : String) :
    pattern (.node "literal" span [.str token]) = .ok (.literal (Token.decodeLiteral token) span) :=
  rfl

theorem pattern_regex (token : String) : pattern (.node "regex" span [.str token]) =
    .ok (.regex (Token.decodeRegex token).1 (Token.decodeRegex token).2 span) :=
  rfl

theorem pattern_any : pattern (.node "any" span []) = .ok (.any span) :=
  rfl

theorem pattern_variable (token : String) : pattern (.node "variable" span [.str token]) =
    match Token.decodeVariable? token with
    | some index => .ok (.variable index span)
    | none => malformed "variable" :=
  rfl

theorem pattern_id (name : String) :
    pattern (.node "id" span [.str name]) = .ok (.name name span) :=
  rfl

theorem pattern_template (function : Option String) (body : String) :
    pattern (.node "template" span [.ofText function, .str body]) =
      .ok (.template function body span) := by
  cases function <;> rfl

theorem pattern_apply (function : String) (tree : Value) :
    pattern (.node "apply" span [.str function, tree]) =
      (pattern tree).map (.apply function · span) :=
  rfl

/-- The tree of a group, given those of its items. -/
theorem pattern_group (trees : List Value) : pattern (.node "group" span [.list trees]) =
    (groupItems trees).map (.group · span) :=
  rfl

/-- An item is important if its mark is there, whatever the mark is. -/
theorem groupItem_node (mark tree : Value) :
    groupItem (.node "groupItem" span [mark, tree]) = repeatable (!mark.isAbsent) tree :=
  rfl

/-- The tree of an item that may be repeated, given that of its pattern. -/
theorem repeatable_node (important : Bool) (tree modifier : Value) :
    repeatable important (.node "rep" span [tree, modifier]) = do
      let repetition ← repetition (← optionalString "repetition" modifier)
      return .mk important (← pattern tree) repetition span :=
  rfl

/-- The tree of an alternative, given those of its items and of its mapper. -/
theorem alternative_node (trees : List Value) (code : Value) :
    alternative (.node "alternative" span [.list trees, code]) = do
      let items ← trees.mapM item
      return ⟨items, ← mapper code, span⟩ :=
  rfl

/-- A mapper without code in it is no mapper. -/
theorem mapper_node (token : String) : mapper (.node "mapper" span [.str token]) =
    .ok (if (Token.normalizeMapper token).isEmpty then none
      else some ⟨Token.normalizeMapper token, span⟩) :=
  rfl

theorem addTo_pasta (grammar : Grammar) (code : String) :
    addTo grammar (.node "pasta" span [.str code]) =
      .ok { grammar with pastas := grammar.pastas ++ [⟨code, span⟩] } :=
  rfl

/-- The tree of a rule adds the rule to the grammar. -/
theorem addTo_rule (grammar : Grammar) (name : String) (type alternatives : Value) :
    addTo grammar (.node "rule" span [.str name, type, alternatives]) =
      (ruleOf (.simple name) type alternatives span).map fun rule =>
        { grammar with rules := grammar.rules ++ [rule] } :=
  rfl

/-- So does that of a template, which may have no name. -/
theorem addTo_templateRule (grammar : Grammar) (function : Option String) (param : String)
    (type alternatives : Value) :
    addTo grammar (.node "templateRule" span [.ofText function, .str param, type, alternatives]) =
      (ruleOf (.template function param) type alternatives span).map fun rule =>
        { grammar with rules := grammar.rules ++ [rule] } := by
  cases function <;> rfl

/-- The tree of a grammar has those of its items in order. -/
theorem ofTree_node (trees : List Value) :
    Grammar.ofTree (.node "grammar" span [.list trees]) = trees.foldlM addTo {} :=
  rfl

theorem ruleOf_list (head : RuleHead) (type : Value) (trees : List Value) :
    ruleOf head type (.list trees) span = do
      let type ← declaredType type
      return ⟨head, type, ← trees.mapM alternative, span⟩ :=
  rfl

theorem declaredType_str (type : String) : declaredType (.str type) =
    .ok (if (trim type.toList).isEmpty then none else some (String.ofList (trim type.toList))) :=
  rfl

end Nodes

/-! ### Patterns -/

mutual

/-- A pattern that can be printed is read back from its tree, without spans. -/
theorem pattern_tree : ∀ {p : Pattern}, p.Printable → pattern p.tree = .ok p.eraseSpans
  | .literal string _, _ => by
    rw [Pattern.tree, pattern_literal, Token.decodeLiteral_encodeLiteral, Pattern.eraseSpans]
  | .regex source flags _, h => by
    rw [Pattern.tree, pattern_regex, Token.decodeRegex_encodeRegex h.1 h.2, Pattern.eraseSpans]
  | .any _, _ => by
    rw [Pattern.tree, pattern_any, Pattern.eraseSpans]
  | .name name _, _ => by
    rw [Pattern.tree, pattern_id, Pattern.eraseSpans]
  | .variable index _, h => by
    rw [Pattern.tree, pattern_variable, Token.decodeVariable?_encodeVariable h, Pattern.eraseSpans]
  | .template function body _, _ => by
    rw [Pattern.tree, pattern_template, Pattern.eraseSpans]
  | .apply function p _, h => by
    rw [Pattern.tree, pattern_apply, pattern_tree h.2, Pattern.eraseSpans]
    rfl
  | .group items _, h => by
    rw [Pattern.tree, pattern_group, groupItems_trees h.2, Pattern.eraseSpans]
    rfl

/-- So is an item that may be repeated. -/
theorem repeatable_repTree (important : Bool) : ∀ {item : GroupItem}, item.Printable →
    repeatable important item.repTree = .ok (GroupItem.ofItem important item.item).eraseSpans
  | .mk _ p modifier _, h => by
    rw [GroupItem.repTree, repeatable_node, optionalString_ofText, pattern_tree h]
    show (repetition (Repetition.text modifier) >>= _) = _
    rw [repetition_text]
    rfl

/-- So are the items of a group. -/
theorem groupItems_trees : ∀ {items : List GroupItem}, AllPrintable items →
    groupItems (treesOfItems items) = .ok (eraseSpansOfItems items)
  | [], _ => rfl
  | .mk important p modifier span :: items, h => by
    have hmark : (!(Value.ofText (if important then some "!" else none)).isAbsent) = important := by
      cases important <;> rfl
    have hitem := repeatable_repTree important h.1
    rw [treesOfItems, groupItems, groupItem_node, GroupItem.important, hmark, hitem,
      groupItems_trees h.2]
    rfl

end

/-! ### Rules -/

/-- A list of trees is read back if each of them is. -/
theorem mapM_map_ok {ε α β γ : Type} {f : β → Except ε γ} {g : α → β} {h : α → γ}
    {values : List α} (hf : ∀ value ∈ values, f (g value) = .ok (h value)) :
    (values.map g).mapM f = .ok (values.map h) := by
  induction values with
  | nil => rfl
  | cons value values ih =>
    obtain ⟨hvalue, hvalues⟩ := List.forall_mem_cons.1 hf
    rw [List.map_cons, List.mapM_cons, hvalue, ih hvalues]
    rfl

theorem item_tree {i : Item} (h : i.Printable) : item i.tree = .ok i.eraseSpans := by
  have hitem : (GroupItem.ofItem false i).Printable := h
  rw [item, Item.tree, repeatable_repTree false hitem]
  rfl

theorem mapper_tree {code : MapperCode} (h : IsMapperText code.code) :
    mapper code.tree = .ok (some code.eraseSpans) := by
  have hempty : code.code.isEmpty = false := by
    rw [Bool.eq_false_iff, Ne, String.isEmpty_iff]
    exact h.nonempty
  rw [MapperCode.tree, mapper_node, Token.normalizeMapper_mapperWord h, hempty,
    if_neg Bool.false_ne_true, MapperCode.eraseSpans]

/-- An alternative comes back from its tree with its items and its mapper. -/
theorem alternative_tree {a : Alternative} (h : a.Printable) :
    alternative a.tree = .ok a.eraseSpans := by
  have hmapper : mapper (.ofOption (a.mapper.map MapperCode.tree)) =
      .ok (a.mapper.map MapperCode.eraseSpans) := by
    rcases hcode : a.mapper with - | code
    · rfl
    · exact mapper_tree (h.mapper code hcode)
  rw [Alternative.tree, alternative_node, mapM_map_ok fun i hi => item_tree (h.items i hi), hmapper]
  rfl

/-- The blank that the printer puts after a type is trimmed again. -/
theorem trim_type {type : String} (h : IsTypeText type.toList) :
    Text.trim (type ++ " ").toList = type.toList := by
  have hblank : ∀ c ∈ [' '], Text.isBlank c = true := List.forall_mem_singleton.2 rfl
  rw [String.toList_append]
  exact Text.trim_append_blanks hblank (Text.isTrimmed_iff.2 h.trimmed) h.nonempty

/-- A declared type is read back, and so is the lack of one. -/
theorem declaredType_tree {rule : Rule} (h : ∀ type ∈ rule.type, IsTypeText type.toList) :
    declaredType rule.typeTree = .ok rule.type := by
  rw [Rule.typeTree]
  rcases htype : rule.type with - | type
  · rfl
  · have htext := h type htype
    have hvalue : Value.ofText ((some type).map (· ++ " ")) = .str (type ++ " ") := rfl
    rw [hvalue, declaredType_str, trim_type htext, List.isEmpty_eq_false_iff.2 htext.nonempty,
      if_neg Bool.false_ne_true, String.ofList_toList]

/-- A rule that can be printed is read back from the parts of its tree. -/
theorem ruleOf_tree {rule : Rule} (h : rule.Printable) :
    ruleOf rule.head rule.typeTree (.list (rule.alternatives.map Alternative.tree)) {} =
      .ok rule.eraseSpans := by
  rw [ruleOf_list, declaredType_tree h.type,
    mapM_map_ok fun a ha => alternative_tree (h.alternatives a ha)]
  rfl

/-- Reading the tree of a rule adds this rule. -/
theorem addTo_rule_tree (grammar : Grammar) {rule : Rule} (h : rule.Printable) :
    addTo grammar rule.tree =
      .ok { grammar with rules := grammar.rules ++ [rule.eraseSpans] } := by
  have hrule := ruleOf_tree h
  obtain ⟨head, type, alternatives, span⟩ := rule
  cases head with
  | simple name =>
    show addTo grammar (.node "rule" {} [.str name, _, .list _]) = _
    rw [addTo_rule, hrule]
    rfl
  | template function param =>
    show addTo grammar (.node "templateRule" {} [.ofText function, .str param, _, .list _]) = _
    rw [addTo_templateRule, hrule]
    rfl

/-- All trees of a grammar together give back its pasta blocks and its rules. -/
theorem foldlM_trees (grammar : Grammar) {pastas : List Pasta} {rules : List Rule}
    (h : ∀ rule ∈ rules, rule.Printable) :
    (pastas.map Pasta.tree ++ rules.map Rule.tree).foldlM addTo grammar =
      .ok ⟨grammar.pastas ++ pastas.map Pasta.eraseSpans,
        grammar.rules ++ rules.map Rule.eraseSpans⟩ := by
  induction pastas generalizing grammar with
  | nil =>
    rw [List.map_nil, List.nil_append, List.map_nil, List.append_nil]
    induction rules generalizing grammar with
    | nil =>
      rw [List.map_nil, List.map_nil, List.append_nil]
      rfl
    | cons rule rules ih =>
      obtain ⟨hrule, hrules⟩ := List.forall_mem_cons.1 h
      rw [List.map_cons, List.foldlM_cons, addTo_rule_tree grammar hrule, List.map_cons]
      refine (ih hrules _).trans ?_
      rw [List.append_assoc, List.singleton_append]
  | cons pasta pastas ih =>
    rw [List.map_cons, List.cons_append, List.foldlM_cons, List.map_cons]
    refine (ih { grammar with pastas := grammar.pastas ++ [pasta.eraseSpans] }).trans ?_
    rw [List.append_assoc, List.singleton_append]

end Tree

/-- The tree of a grammar that can be written stands for the grammar. -/
theorem Grammar.ofTree_tree {grammar : Grammar} (h : grammar.Printable) :
    ofTree grammar.tree = .ok grammar.eraseSpans :=
  Tree.foldlM_trees {} h.rules

/-- So does any tree that is like it but for its spans. -/
theorem Grammar.ofTree_of_eraseSpans {grammar : Grammar} (h : grammar.Printable) {tree : Value}
    (htree : tree.eraseSpans = grammar.tree) :
    ∃ grammar', ofTree tree = .ok grammar' ∧ grammar'.eraseSpans = grammar.eraseSpans := by
  have herase := ofTree_eraseSpans tree
  rw [htree, ofTree_tree h] at herase
  rcases hread : ofTree tree with error | grammar'
  · rw [hread] at herase
    cases herase
  · rw [hread] at herase
    exact ⟨grammar', rfl, (Except.ok.inj herase).symm⟩

end Peg
