/-
Peg/Proofs/Grammar/Tree.lean

Syntax trees and their spans.

What a syntax tree stands for depends on its spans only in the spans:

    ofTree tree.eraseSpans = (ofTree tree).map eraseSpans

for every tree, whether it is one of a grammar or not.  So a tree that is like
another one but for its spans stands for a grammar that is the same but for
its own.  There is one equation of this form for each function that reads a
part of the tree, and a few laws of `Except.map` put them together.
-/
import Peg.Grammar.Tree
import Peg.Proofs.Grammar.Printable
import Peg.Proofs.Value.Shape

namespace Peg

namespace Tree

/-! ### Actions and functions of their results -/

section

variable {ε α β γ : Type}

/-- A change of the result may as well be made by what comes next. -/
theorem map_bind (f : α → β) (action : Except ε α) (next : β → Except ε γ) :
    (action.map f >>= next) = action >>= fun value => next (f value) := by
  rcases action with error | value <;> rfl

/-- A change of the last result is one of the whole. -/
theorem bind_map (f : β → γ) (action : Except ε α) (next : α → Except ε β) :
    (action >>= next).map f = action >>= fun value => (next value).map f := by
  rcases action with error | value <;> rfl

theorem pure_map (f : α → β) (value : α) :
    (pure value : Except ε α).map f = pure (f value) := rfl

/-- Actions on changed values, with results that are changed alike. -/
theorem mapM_map {f : α → Except ε β} {g : α → α} {h : β → β}
    (hf : ∀ value, f (g value) = (f value).map h) (values : List α) :
    (values.map g).mapM f = (values.mapM f).map (List.map h) := by
  induction values with
  | nil => rfl
  | cons value values ih =>
    rw [List.map_cons, List.mapM_cons, List.mapM_cons, hf, ih]
    simp only [map_bind, bind_map, pure_map, List.map_cons]

end

/-! ### Nodes and their children -/

variable {expected : String}

/-- A change of all children is one of the child that is asked for. -/
theorem child_map (f : Value → Value) (children : List Value) (index : Nat) :
    child (children.map f) index expected = (child children index expected).map f := by
  rw [child, child, List.getElem?_map]
  rcases children[index]? with - | value
  · rfl
  · rfl

/-- Texts have no spans. -/
theorem string_eraseSpans (value : Value) :
    string expected value.eraseSpans = string expected value := by
  cases value <;> rfl

theorem optionalString_eraseSpans (value : Value) :
    optionalString expected value.eraseSpans = optionalString expected value := by
  cases value <;> rfl

/-- The elements of a list lose their spans one by one. -/
theorem list_eraseSpans (value : Value) :
    list expected value.eraseSpans = (list expected value).map (List.map Value.eraseSpans) := by
  cases value with
  | list items =>
    rw [Value.eraseSpans, Value.eraseSpansOfAll_eq_map]
    rfl
  | _ => rfl

/-- A node keeps its kind, and its children lose their spans. -/
theorem node_eraseSpans (kind : String) (value : Value) :
    node kind value.eraseSpans =
      (node kind value).map fun (children, _) => (children.map Value.eraseSpans, {}) := by
  cases value with
  | node kind' span children =>
    rw [Value.eraseSpans, Value.eraseSpansOfAll_eq_map, node, node]
    split
    · rfl
    · rfl
  | _ => rfl

theorem isAbsent_eraseSpans (value : Value) : value.eraseSpans.isAbsent = value.isAbsent := by
  cases value <;> rfl

theorem malformed_map {α β : Type} (f : α → β) :
    (malformed expected : Except CompileError α).map f = malformed expected := rfl

/-! ### Patterns -/

/-- Nodes of any other kind are no items of a group. -/
theorem groupItem_other {kind : String} (h : kind ≠ "groupItem") (span : Span)
    (children : List Value) : groupItem (.node kind span children) = malformed "groupItem" := by
  rw [groupItem.eq_def]
  split
  · rename_i htree
    cases htree
    exact absurd rfl h
  · rfl

/-- Nodes of any other kind are no items with a modifier. -/
theorem repeatable_other {important : Bool} {kind : String} (h : kind ≠ "rep") (span : Span)
    (children : List Value) : repeatable important (.node kind span children) = malformed "rep" := by
  rw [repeatable.eq_def]
  split
  · rename_i htree
    cases htree
    exact absurd rfl h
  · rfl

/-- The recursion over the items of a group, as one over a list. -/
theorem groupItems_eq_mapM (trees : List Value) : groupItems trees = trees.mapM groupItem := by
  induction trees with
  | nil => rfl
  | cons tree trees ih => rw [groupItems, ih, List.mapM_cons]

mutual

/-- Reading a pattern commutes with erasing spans, errors included; by induction on the tree, along
with its parts. -/
theorem pattern_eraseSpans : ∀ tree : Value,
    pattern tree.eraseSpans = (pattern tree).map Pattern.eraseSpans
  | .absent | .str _ | .int _ | .list _ | .tuple _ => by
    simp only [Value.eraseSpans, pattern, malformed_map]
  | .node kind span children => by
    rw [Value.eraseSpans, Value.eraseSpansOfAll_eq_map, pattern.eq_def,
      pattern.eq_def (.node kind span children)]
    dsimp only
    simp only [child_map, map_bind, string_eraseSpans, optionalString_eraseSpans]
    split
    · simp only [bind_map, pure_map, Pattern.eraseSpans]
    · simp only [bind_map, pure_map, Pattern.eraseSpans]
    · rfl
    · simp only [bind_map]
      refine bind_congr fun token => ?_
      rcases Token.decodeVariable? token with - | index
      · rfl
      · rfl
    · simp only [bind_map, pure_map, Pattern.eraseSpans]
    · simp only [bind_map, pure_map, Pattern.eraseSpans]
    · -- an application
      match children with
      | [] => rfl
      | function :: arguments =>
        rw [List.map_cons]
        dsimp only
        simp only [string_eraseSpans, argument_eraseSpans arguments, map_bind, bind_map, pure_map,
          Pattern.eraseSpans]
    · -- a group
      match children with
      | [] => rfl
      | .list items :: _ =>
        rw [List.map_cons, Value.eraseSpans]
        dsimp only
        simp only [groupItems_eraseSpans items, map_bind, bind_map, pure_map, Pattern.eraseSpans]
      | .absent :: _ | .str _ :: _ | .int _ :: _ | .tuple _ :: _ | .node _ _ _ :: _ => rfl
    · rfl

theorem argument_eraseSpans : ∀ arguments : List Value,
    argument (arguments.map Value.eraseSpans) = (argument arguments).map Pattern.eraseSpans
  | [] => rfl
  | tree :: _ => by
    rw [List.map_cons, argument, argument, pattern_eraseSpans tree]

theorem groupItems_eraseSpans : ∀ trees : List Value,
    groupItems (Value.eraseSpansOfAll trees) = (groupItems trees).map eraseSpansOfItems
  | [] => rfl
  | tree :: trees => by
    rw [Value.eraseSpansOfAll, groupItems, groupItems, groupItem_eraseSpans tree,
      groupItems_eraseSpans trees]
    simp only [map_bind, bind_map, pure_map, eraseSpansOfItems]

theorem groupItem_eraseSpans : ∀ tree : Value,
    groupItem tree.eraseSpans = (groupItem tree).map GroupItem.eraseSpans
  | .absent | .str _ | .int _ | .list _ | .tuple _ => by
    simp only [Value.eraseSpans, groupItem, malformed_map]
  | .node kind span children => by
    rw [Value.eraseSpans, Value.eraseSpansOfAll_eq_map]
    by_cases hkind : kind = "groupItem"
    · subst hkind
      match children with
      | [] | [_] => rfl
      | mark :: tree :: _ =>
        rw [List.map_cons, List.map_cons, groupItem, groupItem, isAbsent_eraseSpans,
          repeatable_eraseSpans _ tree]
    · rw [groupItem_other hkind, groupItem_other hkind, malformed_map]

/-- An item with a modifier is read from two children, the second of which is a text. -/
theorem repeatable_eraseSpans (important : Bool) : ∀ tree : Value,
    repeatable important tree.eraseSpans = (repeatable important tree).map GroupItem.eraseSpans
  | .absent | .str _ | .int _ | .list _ | .tuple _ => by
    simp only [Value.eraseSpans, repeatable, malformed_map]
  | .node kind span children => by
    rw [Value.eraseSpans, Value.eraseSpansOfAll_eq_map]
    by_cases hkind : kind = "rep"
    · subst hkind
      match children with
      | [] | [_] => rfl
      | tree :: modifier :: _ =>
        rw [List.map_cons, List.map_cons, repeatable, repeatable]
        simp only [optionalString_eraseSpans, pattern_eraseSpans tree, map_bind, bind_map, pure_map,
          GroupItem.eraseSpans]
    · rw [repeatable_other hkind, repeatable_other hkind, malformed_map]

end

/-! ### Rules -/

theorem item_eraseSpans (tree : Value) : item tree.eraseSpans = (item tree).map Item.eraseSpans := by
  rw [item, item, repeatable_eraseSpans]
  simp only [map_bind, bind_map, pure_map]
  refine bind_congr fun item => ?_
  cases item
  rfl

/-- A mapper that is there is read from the text of its only child. -/
theorem mapper_eq {tree : Value} (h : tree.isAbsent = false) : mapper tree = do
    let (children, span) ← node "mapper" tree
    let code := Token.normalizeMapper (← string "mapper code" (← child children 0 "mapper"))
    return if code.isEmpty then none else some ⟨code, span⟩ := by
  rw [mapper]
  rintro rfl
  cases h

theorem mapper_eraseSpans (tree : Value) :
    mapper tree.eraseSpans = (mapper tree).map (Option.map MapperCode.eraseSpans) := by
  rcases habsent : tree.isAbsent
  · rw [mapper_eq habsent, mapper_eq ((isAbsent_eraseSpans tree).trans habsent), node_eraseSpans]
    simp only [map_bind, bind_map, pure_map, child_map, string_eraseSpans]
    refine bind_congr fun ⟨children, span⟩ => bind_congr fun value => bind_congr fun text => ?_
    split
    · rfl
    · rfl
  · cases tree with
    | absent => rfl
    | _ => cases habsent

/-- An alternative without spans is read from its tree without spans. -/
theorem alternative_eraseSpans (tree : Value) :
    alternative tree.eraseSpans = (alternative tree).map Alternative.eraseSpans := by
  rw [alternative, alternative, node_eraseSpans]
  simp only [map_bind, bind_map, pure_map, child_map, list_eraseSpans, mapM_map item_eraseSpans,
    mapper_eraseSpans, Alternative.eraseSpans]

theorem declaredType_eraseSpans (tree : Value) :
    declaredType tree.eraseSpans = declaredType tree := by
  rw [declaredType, declaredType, optionalString_eraseSpans]

/-- A rule is read alike, whatever span it is given. -/
theorem ruleOf_eraseSpans (head : RuleHead) (type alternatives : Value) (span : Span) :
    ruleOf head type.eraseSpans alternatives.eraseSpans {} =
      (ruleOf head type alternatives span).map Rule.eraseSpans := by
  rw [ruleOf, ruleOf, declaredType_eraseSpans]
  simp only [map_bind, bind_map, pure_map, list_eraseSpans, mapM_map alternative_eraseSpans,
    Rule.eraseSpans]

theorem simpleRule_eraseSpans (tree : Value) :
    simpleRule tree.eraseSpans = (simpleRule tree).map Rule.eraseSpans := by
  rw [simpleRule, simpleRule, node_eraseSpans]
  simp only [map_bind, bind_map, child_map, string_eraseSpans]
  refine bind_congr fun ⟨children, span⟩ => ?_
  simp only [← ruleOf_eraseSpans _ _ _ span]

theorem templateRule_eraseSpans (tree : Value) :
    templateRule tree.eraseSpans = (templateRule tree).map Rule.eraseSpans := by
  rw [templateRule, templateRule, node_eraseSpans]
  simp only [map_bind, bind_map, child_map, string_eraseSpans, optionalString_eraseSpans]
  refine bind_congr fun ⟨children, span⟩ => ?_
  simp only [← ruleOf_eraseSpans _ _ _ span]

theorem pasta_eraseSpans (tree : Value) :
    pasta tree.eraseSpans = (pasta tree).map Pasta.eraseSpans := by
  rw [pasta, pasta, node_eraseSpans]
  simp only [map_bind, bind_map, pure_map, child_map, string_eraseSpans, Pasta.eraseSpans]

theorem kind?_eraseSpans (tree : Value) : tree.eraseSpans.kind? = tree.kind? := by
  cases tree <;> rfl

/-- One tree more or less does not depend on spans either. -/
theorem addTo_eraseSpans (grammar : Grammar) (tree : Value) :
    addTo grammar.eraseSpans tree.eraseSpans =
      (addTo grammar tree).map Grammar.eraseSpans := by
  rw [addTo, addTo, kind?_eraseSpans, pasta_eraseSpans, simpleRule_eraseSpans,
    templateRule_eraseSpans]
  split
  · simp only [map_bind, bind_map, pure_map, Grammar.eraseSpans, List.map_append, List.map_cons,
      List.map_nil]
  · simp only [map_bind, bind_map, pure_map, Grammar.eraseSpans, List.map_append, List.map_cons,
      List.map_nil]
  · simp only [map_bind, bind_map, pure_map, Grammar.eraseSpans, List.map_append, List.map_cons,
      List.map_nil]
  · rfl

/-- So the grammar of trees without spans is the grammar without spans. -/
theorem foldlM_addTo_eraseSpans (grammar : Grammar) (trees : List Value) :
    (trees.map Value.eraseSpans).foldlM addTo grammar.eraseSpans =
      (trees.foldlM addTo grammar).map Grammar.eraseSpans := by
  induction trees generalizing grammar with
  | nil => rfl
  | cons tree trees ih =>
    rw [List.map_cons, List.foldlM_cons, List.foldlM_cons, addTo_eraseSpans]
    simp only [map_bind, bind_map, ih]

end Tree

/-- What a tree stands for depends on its spans only in the spans. -/
theorem Grammar.ofTree_eraseSpans (tree : Value) :
    ofTree tree.eraseSpans = (ofTree tree).map Grammar.eraseSpans := by
  rw [ofTree, ofTree, Tree.node_eraseSpans]
  simp only [Tree.map_bind, Tree.bind_map, Tree.child_map, Tree.list_eraseSpans,
    ← Tree.foldlM_addTo_eraseSpans]
  rfl

end Peg
