/-
Peg/Proofs/Grammar/Spans.lean

The spans in a grammar.

Reading a tree brings in no spans but those of its nodes, and an error about
the tree points to the beginning of the text.  So if the spans of a tree go
from one offset of a text to another, those of the grammar do so as well
(`ofTree_spanned`).

Reading and compiling are actions that may fail, and both have to say where.
`CompileError.Ensures` tells what is known of the result of an action and of
the span of its error, with one lemma for each way to put actions together.
-/
import Peg.Proofs.Grammar.Tree
import Peg.Proofs.Value.Bounds

namespace Peg

/-! ### Spans of parts -/

mutual

/-- The spans of a pattern and of its parts. -/
def Pattern.spans : Pattern → List Span
  | .literal _ span | .regex _ _ span | .any span | .name _ span | .variable _ span
  | .template _ _ span => [span]
  | .apply _ inner span => span :: inner.spans
  | .group items span => span :: spansOfItems items

/-- The spans of a member of a group and of its parts. -/
def GroupItem.spans : GroupItem → List Span
  | .mk _ pattern _ span => span :: pattern.spans

/-- The spans of the members of a group. -/
def spansOfItems : List GroupItem → List Span
  | [] => []
  | item :: items => item.spans ++ spansOfItems items

end

def Item.spans (item : Item) : List Span :=
  (GroupItem.ofItem false item).spans

def Alternative.spans (alternative : Alternative) : List Span :=
  alternative.span :: (alternative.items.flatMap Item.spans ++
    alternative.mapper.toList.map (·.span))

def Rule.spans (rule : Rule) : List Span :=
  rule.span :: rule.alternatives.flatMap Alternative.spans

/-- The spans of a grammar. -/
def Grammar.spans (grammar : Grammar) : List Span :=
  grammar.pastas.map (·.span) ++ grammar.rules.flatMap Rule.spans

/-- The recursion over the items of a group, as one over a list. -/
theorem spansOfItems_eq_flatMap (items : List GroupItem) :
    spansOfItems items = items.flatMap GroupItem.spans := by
  induction items with
  | nil => rfl
  | cons item items ih => rw [spansOfItems, ih, List.flatMap_cons]

/-! ### Results and errors -/

namespace CompileError

variable {α β : Type} {inside : Span → Prop} {P : α → Prop} {action : Except CompileError α}

/-- What is known of the result of an action, and of the span of its error. -/
def Ensures (inside : Span → Prop) (P : α → Prop) : Except CompileError α → Prop
  | .ok result => P result
  | .error error => inside error.span

namespace Ensures

/-- What is ensured of results. -/
theorem result (h : Ensures inside P action) {result : α} (hok : action = .ok result) :
    P result := by
  rw [hok] at h
  exact h

/-- What is ensured of the spans of errors. -/
theorem error (h : Ensures inside P action) {error : CompileError}
    (herror : action = .error error) : inside error.span := by
  rw [herror] at h
  exact h

/-- Actions one after the other, where the second is given what the first one ensures. -/
theorem bind {R : β → Prop} {next : α → Except CompileError β} (h : Ensures inside P action)
    (hnext : ∀ result, P result → Ensures inside R (next result)) :
    Ensures inside R (action >>= next) := by
  rcases action with error | result
  · exact h
  · exact hnext result h

/-- The results of the same action for all elements of a list. -/
theorem mapM {γ : Type} {R : γ → Prop} {f : β → Except CompileError γ} {values : List β}
    (h : ∀ value ∈ values, Ensures inside R (f value)) :
    Ensures inside (fun results => ∀ result ∈ results, R result) (values.mapM f) := by
  induction values with
  | nil =>
    have hnil : ∀ result ∈ ([] : List γ), R result := nofun
    exact hnil
  | cons value values ih =>
    obtain ⟨hvalue, hvalues⟩ := List.forall_mem_cons.1 h
    rw [List.mapM_cons]
    apply hvalue.bind
    intro first hfirst
    apply (ih hvalues).bind
    intro others hothers
    exact List.forall_mem_cons.2 ⟨hfirst, hothers⟩

/-- What every action keeps of what was put together so far is kept to the end. -/
theorem foldlM {f : α → β → Except CompileError α} {values : List β}
    (h : ∀ value ∈ values, ∀ result, P result → Ensures inside P (f result value)) {result : α}
    (hresult : P result) : Ensures inside P (values.foldlM f result) := by
  induction values generalizing result with
  | nil => exact hresult
  | cons value values ih =>
    obtain ⟨hvalue, hvalues⟩ := List.forall_mem_cons.1 h
    rw [List.foldlM_cons]
    apply (hvalue result hresult).bind
    intro next hnext
    exact ih hvalues hnext

end Ensures

end CompileError

/-! ### Reading trees -/

open Text CompileError

namespace Tree

variable {α : Type} {input : List Char} {expected : String}

/-- The spans in what is read are within a text, and so is the one of an error. -/
abbrev Spanned (input : List Char) (spans : α → List Span) : Except CompileError α → Prop :=
  Ensures (Span.Within true input) fun part => ∀ span ∈ spans part, span.Within true input

/-- An error about the form of a tree points nowhere, which is inside of any text. -/
theorem malformed_ensures {P : α → Prop} :
    Ensures (Span.Within true input) P (malformed expected : Except CompileError α) :=
  Span.within_stay true (isOffset_zero input)

/-- A node in bounds has children in bounds, and its span is within the text. -/
theorem node_ensures {tree : Value} (kind : String) (h : tree.InBounds input) :
    Ensures (Span.Within true input)
      (fun found => (∀ child ∈ found.1, child.InBounds input) ∧ found.2.Within true input)
      (node kind tree) := by
  cases tree with
  | node kind' span children =>
    rw [node]
    split
    · exact ⟨Value.areInBounds_iff.1 h.2, h.1⟩
    · exact malformed_ensures
  | _ => exact malformed_ensures

/-- A child of a tree within bounds is within them, if it is there. -/
theorem child_ensures {children : List Value} (h : ∀ child ∈ children, child.InBounds input)
    (index : Nat) :
    Ensures (Span.Within true input) (Value.InBounds input) (child children index expected) := by
  rw [child]
  rcases hchild : children[index]? with - | value
  · exact malformed_ensures
  · exact h value (List.mem_of_getElem? hchild)

/-- So are the elements of a list. -/
theorem list_ensures {tree : Value} (h : tree.InBounds input) :
    Ensures (Span.Within true input) (fun items => ∀ item ∈ items, item.InBounds input)
      (list expected tree) := by
  cases tree with
  | list items => exact Value.areInBounds_iff.1 h
  | _ => exact malformed_ensures

theorem string_ensures (value : Value) :
    Ensures (Span.Within true input) (fun _ => True) (string expected value) := by
  rw [string]
  rcases value.asString? with - | text
  · exact malformed_ensures
  · trivial

theorem optionalString_ensures (value : Value) :
    Ensures (Span.Within true input) (fun _ => True) (optionalString expected value) := by
  cases value with
  | absent | str text => trivial
  | _ => exact malformed_ensures

theorem repetition_ensures (symbol : Option String) :
    Ensures (Span.Within true input) (fun _ => True) (repetition symbol) := by
  cases symbol with
  | none => trivial
  | some symbol =>
    rw [repetition]
    rcases symbol.toList.head?.bind Repetition.ofSymbol? with - | repetition
    · exact malformed_ensures
    · trivial

/-! ### Patterns -/

mutual

/-- The spans of a pattern are those of nodes of its tree, by induction on the tree along with its
parts. -/
theorem pattern_spanned : ∀ tree : Value, tree.InBounds input →
    Spanned input Pattern.spans (pattern tree)
  | .absent, _ | .str _, _ | .int _, _ | .list _, _ | .tuple _, _ => by
    simp only [pattern]
    exact malformed_ensures
  | .node kind span children, h => by
    obtain ⟨hspan, hchildren⟩ := h
    have hleaf : ∀ span' ∈ [span], span'.Within true input := List.forall_mem_singleton.2 hspan
    -- the token that all the other patterns are made of
    have htoken : Ensures (Span.Within true input) (fun _ => True)
        (child children 0 "pattern" >>= string "pattern token") :=
      (child_ensures (Value.areInBounds_iff.1 hchildren) 0).bind fun value _ => string_ensures value
    rw [pattern.eq_def]
    dsimp only
    split
    · exact htoken.bind fun token _ => hleaf
    · exact htoken.bind fun token _ => hleaf
    · exact hleaf
    · refine htoken.bind fun token _ => ?_
      rcases Token.decodeVariable? token with - | index
      · exact malformed_ensures
      · exact hleaf
    · exact htoken.bind fun token _ => hleaf
    · apply (child_ensures (Value.areInBounds_iff.1 hchildren) 0).bind
      intro name hname
      apply (optionalString_ensures name).bind
      intro function hfunction
      apply (child_ensures (Value.areInBounds_iff.1 hchildren) 1).bind
      intro body hbody
      exact (string_ensures body).bind fun text _ => hleaf
    · -- an application
      match children, hchildren with
      | [], _ => exact malformed_ensures
      | function :: arguments, h =>
        apply (string_ensures function).bind
        intro name hname
        apply (argument_spanned arguments h.2).bind
        intro inner hinner
        exact List.forall_mem_cons.2 ⟨hspan, hinner⟩
    · -- a group
      match children, hchildren with
      | [], _ => exact malformed_ensures
      | .list items :: _, h =>
        apply (groupItems_spanned items h.1).bind
        intro items hitems
        exact List.forall_mem_cons.2 ⟨hspan, hitems⟩
      | .absent :: _, _ | .str _ :: _, _ | .int _ :: _, _ | .tuple _ :: _, _
      | .node _ _ _ :: _, _ => exact malformed_ensures
    · exact malformed_ensures

theorem argument_spanned : ∀ arguments : List Value, Value.AreInBounds input arguments →
    Spanned input Pattern.spans (argument arguments)
  | [], _ => malformed_ensures
  | tree :: _, h => by
    rw [argument]
    exact pattern_spanned tree h.1

theorem groupItems_spanned : ∀ trees : List Value, Value.AreInBounds input trees →
    Spanned input spansOfItems (groupItems trees)
  | [], _ => by
    rw [groupItems]
    exact fun _ hspan => nomatch hspan
  | tree :: trees, h => by
    rw [groupItems]
    apply (groupItem_spanned tree h.1).bind
    intro item hitem
    apply (groupItems_spanned trees h.2).bind
    intro items hitems
    exact List.forall_mem_append.2 ⟨hitem, hitems⟩

theorem groupItem_spanned : ∀ tree : Value, tree.InBounds input →
    Spanned input GroupItem.spans (groupItem tree)
  | .absent, _ | .str _, _ | .int _, _ | .list _, _ | .tuple _, _ => by
    simp only [groupItem]
    exact malformed_ensures
  | .node kind span children, h => by
    by_cases hkind : kind = "groupItem"
    · subst hkind
      match children, h.2 with
      | [], _ | [_], _ => exact malformed_ensures
      | mark :: tree :: _, hchildren =>
        rw [groupItem]
        exact repeatable_spanned _ tree hchildren.2.1
    · rw [groupItem_other hkind]
      exact malformed_ensures

/-- So are those of an item with a modifier. -/
theorem repeatable_spanned (important : Bool) : ∀ tree : Value, tree.InBounds input →
    Spanned input GroupItem.spans (repeatable important tree)
  | .absent, _ | .str _, _ | .int _, _ | .list _, _ | .tuple _, _ => by
    simp only [repeatable]
    exact malformed_ensures
  | .node kind span children, h => by
    by_cases hkind : kind = "rep"
    · subst hkind
      match children, h.2 with
      | [], _ | [_], _ => exact malformed_ensures
      | tree :: modifier :: _, hchildren =>
        rw [repeatable]
        apply (optionalString_ensures modifier).bind
        intro symbol hsymbol
        apply (repetition_ensures symbol).bind
        intro repetition hrepetition
        apply (pattern_spanned tree hchildren.1).bind
        intro p hp
        exact List.forall_mem_cons.2 ⟨h.1, hp⟩
    · rw [repeatable_other hkind]
      exact malformed_ensures

end

/-! ### Rules -/

variable {tree : Value}

theorem item_spanned (h : tree.InBounds input) : Spanned input Item.spans (item tree) := by
  apply (repeatable_spanned false tree h).bind
  rintro ⟨important, p, repetition, span⟩ hitem
  exact hitem

/-- A mapper has the span of its node. -/
theorem mapper_spanned (h : tree.InBounds input) :
    Spanned input (fun mapper => mapper.toList.map (·.span)) (mapper tree) := by
  have hnone : ∀ span ∈ ([] : List Span), span.Within true input := nofun
  cases habsent : tree.isAbsent
  · rw [mapper_eq habsent]
    apply (node_ensures "mapper" h).bind
    rintro ⟨children, span⟩ ⟨hchildren, hspan⟩
    apply (child_ensures hchildren 0).bind
    intro child hchild
    apply (string_ensures child).bind
    intro text htext
    -- a blank mapper is dropped, with its span
    simp only [pure, Except.pure, Ensures]
    split
    · exact hnone
    · exact List.forall_mem_singleton.2 hspan
  · cases tree with
    | absent => exact hnone
    | _ => cases habsent

/-- The spans of an alternative are those of its items and of its mapper, and its own. -/
theorem alternative_spanned (h : tree.InBounds input) :
    Spanned input Alternative.spans (alternative tree) := by
  apply (node_ensures "alternative" h).bind
  rintro ⟨children, span⟩ ⟨hchildren, hspan⟩
  apply (child_ensures hchildren 0).bind
  intro child hchild
  apply (list_ensures hchild).bind
  intro trees htrees
  apply (Ensures.mapM fun tree htree => item_spanned (htrees tree htree)).bind
  intro items hitems
  apply (child_ensures hchildren 1).bind
  intro child hchild
  apply (mapper_spanned hchild).bind
  intro mapper hmapper
  exact List.forall_mem_cons.2 ⟨hspan, List.forall_mem_append.2
    ⟨List.forall_mem_flatMap.2 hitems, hmapper⟩⟩

theorem declaredType_ensures (tree : Value) :
    Ensures (Span.Within true input) (fun _ => True) (declaredType tree) := by
  rw [declaredType]
  apply (optionalString_ensures tree).bind
  intro text htext
  rcases text with - | text
  · trivial
  · trivial

/-- The span of a rule is given, and the others are those of its alternatives. -/
theorem ruleOf_spanned {alternatives : Value} {span : Span} (head : RuleHead) (type : Value)
    (h : alternatives.InBounds input) (hspan : span.Within true input) :
    Spanned input Rule.spans (ruleOf head type alternatives span) := by
  apply (declaredType_ensures type).bind
  intro declared hdeclared
  apply (list_ensures h).bind
  intro trees htrees
  apply (Ensures.mapM fun tree htree => alternative_spanned (htrees tree htree)).bind
  intro alternatives halternatives
  exact List.forall_mem_cons.2 ⟨hspan, List.forall_mem_flatMap.2 halternatives⟩

theorem simpleRule_spanned (h : tree.InBounds input) :
    Spanned input Rule.spans (simpleRule tree) := by
  apply (node_ensures "rule" h).bind
  rintro ⟨children, span⟩ ⟨hchildren, hspan⟩
  apply (child_ensures hchildren 0).bind
  intro child hchild
  apply (string_ensures child).bind
  intro name hname
  apply (child_ensures hchildren 1).bind
  intro type htype
  apply (child_ensures hchildren 2).bind
  intro alternatives halternatives
  exact ruleOf_spanned (.simple name) type halternatives hspan

theorem templateRule_spanned (h : tree.InBounds input) :
    Spanned input Rule.spans (templateRule tree) := by
  apply (node_ensures "templateRule" h).bind
  rintro ⟨children, span⟩ ⟨hchildren, hspan⟩
  apply (child_ensures hchildren 0).bind
  intro child hchild
  apply (optionalString_ensures child).bind
  intro name hname
  apply (child_ensures hchildren 1).bind
  intro child hchild
  apply (string_ensures child).bind
  intro param hparam
  apply (child_ensures hchildren 2).bind
  intro type htype
  apply (child_ensures hchildren 3).bind
  intro alternatives halternatives
  exact ruleOf_spanned (.template name param) type halternatives hspan

/-- A pasta block has the span of its node. -/
theorem pasta_spanned (h : tree.InBounds input) :
    Spanned input (fun pasta => [pasta.span]) (pasta tree) := by
  apply (node_ensures "pasta" h).bind
  rintro ⟨children, span⟩ ⟨hchildren, hspan⟩
  apply (child_ensures hchildren 0).bind
  intro child hchild
  apply (string_ensures child).bind
  intro code hcode
  exact List.forall_mem_singleton.2 hspan

/-! ### Grammars -/

/-- A tree within bounds adds spans within bounds. -/
theorem addTo_spanned {grammar : Grammar} (h : tree.InBounds input)
    (hgrammar : ∀ span ∈ grammar.spans, span.Within true input) :
    Spanned input Grammar.spans (addTo grammar tree) := by
  obtain ⟨hpastas, hrules⟩ := List.forall_mem_append.1 hgrammar
  have haddRule : ∀ rule : Rule, (∀ span ∈ rule.spans, span.Within true input) →
      ∀ span ∈ ({ grammar with rules := grammar.rules ++ [rule] } : Grammar).spans,
        span.Within true input := by
    intro rule hrule
    rw [Grammar.spans, List.flatMap_append, List.flatMap_singleton]
    exact List.forall_mem_append.2 ⟨hpastas, List.forall_mem_append.2 ⟨hrules, hrule⟩⟩
  rw [addTo]
  split
  · apply (pasta_spanned h).bind
    intro pasta hpasta
    show ∀ span ∈ ({ grammar with pastas := grammar.pastas ++ [pasta] } : Grammar).spans, _
    rw [Grammar.spans, List.map_append]
    exact List.forall_mem_append.2 ⟨List.forall_mem_append.2 ⟨hpastas, hpasta⟩, hrules⟩
  · exact (simpleRule_spanned h).bind haddRule
  · exact (templateRule_spanned h).bind haddRule
  · exact malformed_ensures

/-- The spans of a grammar are within the text that its tree is about. -/
theorem ofTree_spanned (h : tree.InBounds input) :
    Spanned input Grammar.spans (Grammar.ofTree tree) := by
  apply (node_ensures "grammar" h).bind
  rintro ⟨children, span⟩ ⟨hchildren, -⟩
  apply (child_ensures hchildren 0).bind
  intro child hchild
  apply (list_ensures hchild).bind
  intro trees htrees
  refine Ensures.foldlM (fun tree htree grammar => addTo_spanned (htrees tree htree)) ?_
  show ∀ span ∈ ([] : List Span), span.Within true input
  exact nofun

end Tree

end Peg
